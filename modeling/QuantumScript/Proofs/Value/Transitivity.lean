import QuantumScript.Proofs.Value.Equality

/-!
# How far equality is transitive

Arrays may lie on cycles, where the comparison of two values stops at an array it is inside of and
answers no. Two values are `Bisimilar` when no walk through their items, however long, finds a
difference, and the comparison of two values `Reenters` when it comes to two different arrays of
which one is already on its way. Values are equal exactly when they are bisimilar and the comparison
does not re-enter (`Store.equal_iff_bisimilar`).

Being bisimilar is transitive, so for equal values `x` and `y` and equal values `y` and `z` only a
re-entry can make `x` and `z` differ (`Store.equal_trans_iff`). It does so for some cyclic arrays
(`Store.equal_cyclic_not_trans`), but not if one of the three values holds no cycle.
-/

namespace QuantumScript

namespace Store

open Relation

variable {store : Store} {x y z u v : Value} {a b : ArrayId} {path : List ArrayId}

/-! ## Bisimilar values -/

/-- The values of all related pairs agree, where two arrays are the same or have related items. -/
def Bisimulation (store : Store) (R : Value → Value → Prop) : Prop :=
  ∀ x y, R x y → Value.Agree (fun a b => a = b ∨ store.ItemsRelated R a b) x y

/-- No walk through the items of two values tells them apart. -/
def Bisimilar (store : Store) (x y : Value) : Prop :=
  ∃ R, store.Bisimulation R ∧ R x y

/-- Items related by a relation are related by a wider one. -/
theorem ItemsRelated.imp {R S : Value → Value → Prop} (h : store.ItemsRelated R a b)
    (himp : ∀ x y, R x y → S x y) : store.ItemsRelated S a b :=
  ⟨h.length, fun i x y hx hy => himp x y (h.each i x y hx hy)⟩

/-- Being bisimilar is a bisimulation. -/
theorem Bisimilar.agree (h : store.Bisimilar x y) :
    Value.Agree (fun a b => a = b ∨ store.ItemsRelated store.Bisimilar a b) x y := by
  obtain ⟨R, hR, hxy⟩ := h
  refine (hR x y hxy).imp fun a b _ _ hab => hab.imp_right fun hitems => ?_
  exact hitems.imp fun u v huv => ⟨R, hR, huv⟩

/-- Being bisimilar is symmetric. -/
theorem Bisimilar.symm (h : store.Bisimilar x y) : store.Bisimilar y x := by
  refine ⟨fun x y => store.Bisimilar y x, fun x y hyx => ?_, h⟩
  refine hyx.agree.symm.imp fun a b _ _ hba => ?_
  rcases hba with hba | hitems
  · exact .inl hba.symm
  · exact .inr ⟨hitems.length.symm, fun i x y hx hy => hitems.each i y x hy hx⟩

/-- Being bisimilar is transitive. -/
theorem Bisimilar.trans (hxy : store.Bisimilar x y) (hyz : store.Bisimilar y z) :
    store.Bisimilar x z := by
  -- Where one of the two comparisons ends at the same array, only the other goes on to the items.
  let R := fun x z => store.Bisimilar x z ∨ ∃ y, store.Bisimilar x y ∧ store.Bisimilar y z
  refine ⟨R, ?_, .inr ⟨y, hxy, hyz⟩⟩
  rintro x z (hxz | ⟨y, hxy, hyz⟩)
  · exact hxz.agree.imp fun a c _ _ hac => hac.imp_right fun hitems => hitems.imp fun _ _ => .inl
  · refine (hxy.agree.trans hyz.agree).imp fun a c _ _ hac => ?_
    obtain ⟨b, rfl | hab, rfl | hbc⟩ := hac
    · exact .inl rfl
    · exact .inr (hbc.imp fun _ _ => .inl)
    · exact .inr (hab.imp fun _ _ => .inl)
    · refine .inr ⟨hab.length.trans hbc.length, fun i u w hu hw => ?_⟩
      have hi : i < (store.items b).size := by
        rw [hbc.length]
        exact (Array.getElem?_eq_some_iff.1 hw).1
      have hv : (store.items b)[i]? = some (store.items b)[i] := Array.getElem?_eq_getElem hi
      exact .inr ⟨_, hab.each i u _ hu hv, hbc.each i _ w hv hw⟩

/-- Values that are equal inside the arrays of some path are bisimilar. -/
theorem bisimilar_of_equalWithin (h : store.equalWithin path x y = true) : store.Bisimilar x y := by
  refine ⟨fun x y => ∃ path, store.equalWithin path x y = true, ?_, path, h⟩
  rintro x y ⟨path, h⟩
  refine (equalWithin_iff.1 h).imp fun a b _ _ hab => hab.imp_right fun hitems => ?_
  exact hitems.2.imp fun u v huv => ⟨_, huv⟩

/-! ## Re-entry -/

/-- The comparison of two values comes, inside the arrays of a path, to two others. -/
inductive Meets (store : Store) (x y : Value) : List ArrayId → Value → Value → Prop
  /-- It starts with the two values. -/
  | start : Meets store x y [] x y
  /-- From two arrays that are not the same it goes on to their items. -/
  | item {path : List ArrayId} {a b : ArrayId} {i : Nat} {u v : Value}
    (outer : Meets store x y path (.array a) (.array b)) (differ : a ≠ b)
    (left : (store.items a)[i]? = some u) (right : (store.items b)[i]? = some v) :
    Meets store x y (a :: b :: path) u v

/-- The comparison of two values comes to two different arrays of which it is inside one already. -/
def Reenters (store : Store) (x y : Value) : Prop :=
  ∃ path a b, store.Meets x y path (.array a) (.array b) ∧ a ≠ b ∧ (a ∈ path ∨ b ∈ path)

/-- What the comparison of equal values comes to is equal there. -/
theorem Meets.equalWithin (h : store.equal x y = true) (hm : store.Meets x y path u v) :
    store.equalWithin path u v = true := by
  induction hm with
  | start => exact h
  | item outer differ left right ih =>
    cases equalWithin_iff.1 ih with
    | array related =>
      rcases related with hsame | ⟨-, hitems⟩
      · exact absurd hsame differ
      · exact hitems.each _ _ _ left right

/-- The comparison of equal values does not re-enter. -/
theorem not_reenters_of_equal (h : store.equal x y = true) : ¬ store.Reenters x y := by
  rintro ⟨path, a, b, hm, hne, hp⟩
  cases equalWithin_iff.1 (hm.equalWithin h) with
  | array related =>
    rcases related with hsame | ⟨hnot, -⟩
    · exact hne hsame
    · exact hnot hp

/-- Bisimilar values that a comparison comes to without re-entry are equal there. -/
theorem Meets.equalWithin_of_bisimilar (hnot : ¬ store.Reenters x y)
    (hm : store.Meets x y path u v) (h : store.Bisimilar u v) :
    store.equalWithin path u v = true := by
  induction hcount : store.unvisited path using Nat.strongRecOn generalizing path u v with
  | ind count ih =>
    subst hcount
    refine equalWithin_iff.2 (h.agree.imp fun a b hu hv hab => ?_)
    subst hu hv
    by_cases hne : a = b
    · exact .inl hne
    have hp : ¬ (a ∈ path ∨ b ∈ path) := fun hp => hnot ⟨path, a, b, hm, hne, hp⟩
    have hitems : store.ItemsRelated store.Bisimilar a b := hab.resolve_left hne
    refine .inr ⟨hp, hitems.length, fun i u v hu hv => ?_⟩
    exact ih _ (unvisited_pair_lt (mem_items_of_getElem? hu) hp) (hm.item hne hu hv)
      (hitems.each i u v hu hv) rfl

/-- Values are equal exactly when they are bisimilar and their comparison does not re-enter. -/
theorem equal_iff_bisimilar :
    store.equal x y = true ↔ store.Bisimilar x y ∧ ¬ store.Reenters x y := by
  constructor
  · intro h
    exact ⟨bisimilar_of_equalWithin h, not_reenters_of_equal h⟩
  · rintro ⟨h, hnot⟩
    exact Meets.equalWithin_of_bisimilar hnot .start h

/-! ## Values without cycles -/

/-- Being bisimilar goes item by item. -/
theorem itemwise_bisimilar : store.Itemwise store.Bisimilar := by
  intro a y h
  cases h.agree with
  | array related => exact ⟨_, rfl, related.imp_right fun hitems => ⟨hitems.length, hitems.each⟩⟩

/-- Being bisimilar with the two sides exchanged goes item by item. -/
theorem itemwise_bisimilar_swap : store.Itemwise fun x y => store.Bisimilar y x :=
  fun a y h => by
    obtain ⟨b, hy, hsame | ⟨hlength, heach⟩⟩ := itemwise_bisimilar a y h.symm
    · exact ⟨b, hy, .inl hsame⟩
    · exact ⟨b, hy, .inr ⟨hlength, fun i u v hu hv => (heach i u v hu hv).symm⟩⟩

/-- An array whose items hold no cycle holds none. -/
theorem cycleFree_of_items (h : ∀ v ∈ (store.items b).toList, store.CycleFree v) :
    store.CycleFree (.array b) := by
  rintro id ⟨first, hfirst, hreach⟩ hcycle
  cases hfirst
  -- The first step, from the array or around the cycle, leads to an item that reaches the cycle.
  have hstep : ∃ d, store.Holds b d ∧ ReflTransGen store.Holds d id := by
    rcases ReflTransGen.cases_head hreach with rfl | ⟨d, hbd, hdid⟩
    · exact TransGen.head'_iff.1 hcycle
    · exact ⟨d, hbd, hdid⟩
  obtain ⟨d, hbd, hdid⟩ := hstep
  exact h (.array d) hbd id ⟨d, rfl, hdid⟩ hcycle

/-- An array that is bisimilar to one that holds no cycle holds none either. -/
theorem Bisimilar.cycleFree_array (h : store.Bisimilar (.array a) (.array b))
    (hfree : store.CycleFree (.array a)) : store.CycleFree (.array b) := by
  -- Only finitely many steps lead inwards from the first array; the induction is on them.
  induction hfree.acc generalizing b with
  | intro a _ ih =>
    cases h.agree with
    | array related =>
      rcases related with rfl | hitems
      · exact hfree
      refine cycleFree_of_items fun v hv => ?_
      rintro id ⟨d, rfl, hreach⟩
      obtain ⟨i, hi⟩ := List.mem_iff_getElem?.1 hv
      rw [Array.getElem?_toList] at hi
      have hlt : i < (store.items a).size := by
        rw [hitems.length]
        exact (Array.getElem?_eq_some_iff.1 hi).1
      have hu : (store.items a)[i]? = some (store.items a)[i] := Array.getElem?_eq_getElem hlt
      generalize (store.items a)[i] = u at hu
      have hud := hitems.each i u _ hu hi
      -- The item at the same place of the first array is an array too.
      cases hud.agree with
      | @array c d related =>
        have hac := mem_items_of_getElem? hu
        exact ih c hac hud (hfree.item hac) id ⟨d, rfl, hreach⟩

/-- What is bisimilar to a value that holds no cycle holds none either. -/
theorem Bisimilar.cycleFree (h : store.Bisimilar x y) (hx : store.CycleFree x) :
    store.CycleFree y := by
  rintro id ⟨b, rfl, hreach⟩
  cases h.agree with
  | array related => exact h.cycleFree_array hx id ⟨b, rfl, hreach⟩

/-- What the comparison of bisimilar values without cycles comes to is bisimilar and holds no cycle,
and the arrays of the path are above it. -/
theorem Meets.above (hx : store.CycleFree x) (hy : store.CycleFree y) (h : store.Bisimilar x y)
    (hm : store.Meets x y path u v) :
    store.CycleFree u ∧ store.CycleFree v ∧ store.Bisimilar u v ∧
      ∀ c ∈ path, store.Above c u ∨ store.Above c v := by
  induction hm with
  | start => exact ⟨hx, hy, h, fun _ hc => absurd hc List.not_mem_nil⟩
  | item outer differ left right ih =>
    obtain ⟨hu, hv, huv, habove⟩ := ih
    have hl := mem_items_of_getElem? left
    have hr := mem_items_of_getElem? right
    refine ⟨hu.item hl, hv.item hr, ?_, above_items habove hl hr⟩
    cases huv.agree with
    | array related => exact (related.resolve_left differ).each _ _ _ left right

/-- The comparison of bisimilar values without cycles does not re-enter. -/
theorem not_reenters_of_cycleFree (hx : store.CycleFree x) (hy : store.CycleFree y)
    (h : store.Bisimilar x y) : ¬ store.Reenters x y := by
  rintro ⟨path, a, b, hm, -, hp⟩
  obtain ⟨ha, hb, hab, habove⟩ := hm.above hx hy h
  exact not_related_of_path itemwise_bisimilar itemwise_bisimilar_swap ha hb hp habove hab

/-! ## Transitivity -/

/-- If `x` equals `y` and `y` equals `z`, then `x` equals `z` exactly when the comparison of `x` with
`z` does not re-enter; and so it is if one of the three values holds no cycle. -/
theorem equal_trans_iff (store : Store) {x y z : Value} (hxy : store.equal x y = true)
    (hyz : store.equal y z = true) :
    (store.equal x z = true ↔ ¬ store.Reenters x z) ∧
      (store.CycleFree x ∨ store.CycleFree y ∨ store.CycleFree z → store.equal x z = true) := by
  have hxy := bisimilar_of_equalWithin hxy
  have hyz := bisimilar_of_equalWithin hyz
  have hxz := hxy.trans hyz
  refine ⟨⟨not_reenters_of_equal, fun hnot => equal_iff_bisimilar.2 ⟨hxz, hnot⟩⟩, fun hfree => ?_⟩
  -- Wherever the value without cycles stands, the first holds none, and so neither does the last.
  have hx : store.CycleFree x := by
    rcases hfree with hx | hy | hz
    · exact hx
    · exact hxy.symm.cycleFree hy
    · exact hxz.symm.cycleFree hz
  exact equal_iff_bisimilar.2 ⟨hxz, not_reenters_of_cycleFree hx (hxz.cycleFree hx) hxz⟩

/-- An array that is its own only item, two arrays with that item, an array with the second of these
as its item, and three arrays of one text. -/
def cyclicArrays : Store :=
  { initial with
    arrays := #[#[.array ⟨0⟩], #[.array ⟨0⟩], #[.array ⟨0⟩], #[.array ⟨2⟩],
      #[.text "a"], #[.text "a"], #[.text "a"]] }

/-- The comparison of the fourth array with the first re-enters, although both equal the second; the
last three arrays hold no cycle. -/
theorem equal_trans_iff_cyclic :
    cyclicArrays.equal (.array ⟨3⟩) (.array ⟨1⟩) = true ∧
      cyclicArrays.equal (.array ⟨1⟩) (.array ⟨0⟩) = true ∧
      cyclicArrays.Reenters (.array ⟨3⟩) (.array ⟨0⟩) ∧
      cyclicArrays.equal (.array ⟨4⟩) (.array ⟨5⟩) = true ∧
      cyclicArrays.equal (.array ⟨5⟩) (.array ⟨6⟩) = true ∧
      cyclicArrays.equal (.array ⟨4⟩) (.array ⟨6⟩) = true := by
  have h31 : cyclicArrays.equal (.array ⟨3⟩) (.array ⟨1⟩) = true := by decide +kernel
  have h10 : cyclicArrays.equal (.array ⟨1⟩) (.array ⟨0⟩) = true := by decide +kernel
  have h45 : cyclicArrays.equal (.array ⟨4⟩) (.array ⟨5⟩) = true := by decide +kernel
  have h56 : cyclicArrays.equal (.array ⟨5⟩) (.array ⟨6⟩) = true := by decide +kernel
  have hreenters : cyclicArrays.Reenters (.array ⟨3⟩) (.array ⟨0⟩) := by
    refine Classical.byContradiction fun hnot => ?_
    have h30 := (equal_trans_iff cyclicArrays h31 h10).1.2 hnot
    exact absurd h30 (by decide +kernel)
  have hfree : cyclicArrays.CycleFree (.array ⟨5⟩) := by
    refine cycleFree_of_items fun v hv => ?_
    have htext : v = .text "a" := List.mem_singleton.1 hv
    rintro id ⟨first, hfirst, -⟩
    rw [htext] at hfirst
    cases hfirst
  exact ⟨h31, h10, hreenters, h45, h56, (equal_trans_iff cyclicArrays h45 h56).2 (.inr (.inl hfree))⟩

/-- Equality is not transitive for arrays on cycles: with `c` its own only item, `[[c]]` equals `[c]`
and `[c]` equals `c`, but `[[c]]` differs from `c`. -/
theorem equal_cyclic_not_trans :
    cyclicArrays.equal (.array ⟨3⟩) (.array ⟨1⟩) = true ∧
      cyclicArrays.equal (.array ⟨1⟩) (.array ⟨0⟩) = true ∧
      cyclicArrays.equal (.array ⟨3⟩) (.array ⟨0⟩) = false := by
  decide +kernel

end Store

end QuantumScript
