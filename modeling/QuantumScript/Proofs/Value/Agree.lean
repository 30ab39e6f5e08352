import QuantumScript.Value.Equality

/-!
# One step of a comparison

Values of different kinds are told apart at once, and so are plain values. Of two arrays a
comparison sees only whether they are the same; the rest it leaves to their items. `Value.Agree`
says that two values are not told apart at once, where a relation between arrays answers for the
items, and `Store.equalWithin_iff` says in these words what the comparison of two values does.
-/

namespace QuantumScript

namespace Number

open Float.Model (UnpackedFloat)

/-- Exponents and mantissas that compare as equal are the same. -/
theorem eq_of_compare_then {e f : Int} {m n : Nat}
    (h : (compare e f).then (compare m n) = .eq) : e = f ∧ m = n := by
  obtain ⟨he, hm⟩ := Ordering.then_eq_eq.1 h
  exact ⟨Int.compare_eq_eq.1 he, Nat.compare_eq_eq.1 hm⟩

/-- Numbers compare as equal when both are zeros, of any sign, or when they are the same and not the
one that is no number. -/
theorem compare_eq_eq {a b : UnpackedFloat} :
    a.compare b = some .eq ↔ (∃ s t, a = .zero s ∧ b = .zero t) ∨ (a = b ∧ a ≠ .notANumber) := by
  constructor
  · intro h
    -- Numbers of different kinds or signs are ordered by these alone, zeros apart.
    cases a with
    | notANumber => cases h
    | infinity s =>
      cases b with
      | infinity t =>
        have hsign : s = t := by cases s <;> cases t <;> first | rfl | cases h
        exact .inr ⟨congrArg _ hsign, fun h => by cases h⟩
      | _ => cases s <;> cases h
    | zero s =>
      cases b with
      | zero t => exact .inl ⟨s, t, rfl, rfl⟩
      | notANumber => cases h
      | infinity t => cases t <;> cases h
      | finite t n f _ => cases t <;> cases h
    | finite s m e _ =>
      cases b with
      | notANumber => cases s <;> cases h
      | infinity t => cases s <;> cases t <;> cases h
      | zero t => cases s <;> cases h
      | finite t n f _ =>
        have hsame : s = t ∧ e = f ∧ m = n := by
          cases s <;> cases t
          · have hswap := Ordering.swap_eq_eq.1 (Option.some.inj h)
            exact ⟨rfl, eq_of_compare_then hswap⟩
          · cases h
          · cases h
          · exact ⟨rfl, eq_of_compare_then (Option.some.inj h)⟩
        obtain ⟨rfl, rfl, rfl⟩ := hsame
        exact .inr ⟨rfl, fun h => by cases h⟩
  · rintro (⟨s, t, rfl, rfl⟩ | ⟨rfl, hnumber⟩)
    · rfl
    · cases a with
      | notANumber => exact absurd rfl hnumber
      | infinity s => cases s <;> rfl
      | zero s => rfl
      | finite s m e _ =>
        have hself : (compare e e).then (compare m m) = .eq :=
          Ordering.then_eq_eq.2 ⟨Int.compare_eq_eq.2 rfl, Nat.compare_eq_eq.2 rfl⟩
        cases s with
        | positive => exact congrArg some hself
        | negative => exact congrArg (some ·.swap) hself

/-- Numbers are equal when they compare so. -/
theorem beq_iff_compare {a b : Float} :
    (a == b) = true ↔ a.toModel.unpack.compare b.toModel.unpack = some .eq := by
  show (a.toModel.unpack.compare b.toModel.unpack == some .eq) = true ↔ _
  exact beq_iff_eq

/-- Equality of numbers is symmetric. -/
theorem beq_symm {a b : Float} (h : (a == b) = true) : (b == a) = true := by
  rw [beq_iff_compare, compare_eq_eq] at h ⊢
  rcases h with ⟨s, t, ha, hb⟩ | ⟨hab, hnumber⟩
  · exact .inl ⟨t, s, hb, ha⟩
  · exact .inr ⟨hab.symm, hab ▸ hnumber⟩

/-- Equality of numbers is transitive. -/
theorem beq_trans {a b c : Float} (hab : (a == b) = true) (hbc : (b == c) = true) :
    (a == c) = true := by
  rw [beq_iff_compare, compare_eq_eq] at *
  rcases hab with ⟨s, t, ha, hb⟩ | ⟨hab, -⟩
  · rcases hbc with ⟨_, u, -, hc⟩ | ⟨hbc, -⟩
    · exact .inl ⟨s, u, ha, hc⟩
    · exact .inl ⟨s, t, ha, hbc ▸ hb⟩
  · rwa [hab]

end Number

/-- Two values are not told apart, where a relation answers for two arrays. -/
inductive Value.Agree (A : ArrayId → ArrayId → Prop) : Value → Value → Prop
  /-- Equal numbers. -/
  | number {a b : Float} (equal : (a == b) = true) : Agree A (.number a) (.number b)
  /-- The same text. -/
  | text (s : String) : Agree A (.text s) (.text s)
  /-- The same truth value. -/
  | bool (b : Bool) : Agree A (.bool b) (.bool b)
  /-- `null`. -/
  | null : Agree A .null .null
  /-- The same function. -/
  | function (id : ClosureId) : Agree A (.function id) (.function id)
  /-- Library functions of the same name. -/
  | native {f g : Native} (named : f.name = g.name) : Agree A (.native f) (.native g)
  /-- The same object. -/
  | object (id : ObjectId) : Agree A (.object id) (.object id)
  /-- Related arrays. -/
  | array {a b : ArrayId} (related : A a b) : Agree A (.array a) (.array b)

namespace Value.Agree

variable {A B : ArrayId → ArrayId → Prop} {x y z : Value}

/-- Values that agree still do under a relation that holds of the arrays among them. -/
theorem imp (h : Agree A x y)
    (himp : ∀ a b, x = .array a → y = .array b → A a b → B a b) : Agree B x y := by
  cases h with
  | number equal => exact .number equal
  | text s => exact .text s
  | bool b => exact .bool b
  | null => exact .null
  | function id => exact .function id
  | native named => exact .native named
  | object id => exact .object id
  | array related => exact .array (himp _ _ rfl rfl related)

/-- Values agree in either order. -/
theorem symm (h : Agree A x y) : Agree (fun b a => A a b) y x := by
  cases h with
  | number equal => exact .number (Number.beq_symm equal)
  | text s => exact .text s
  | bool b => exact .bool b
  | null => exact .null
  | function id => exact .function id
  | native named => exact .native named.symm
  | object id => exact .object id
  | array related => exact .array related

/-- Values that agree with one between them agree, where arrays are related through one between
them. -/
theorem trans (hxy : Agree A x y) (hyz : Agree B y z) :
    Agree (fun a c => ∃ b, A a b ∧ B b c) x z := by
  cases hxy with
  | number equal =>
    cases hyz with
    | number equal' => exact .number (Number.beq_trans equal equal')
  | text s =>
    cases hyz
    exact .text s
  | bool b =>
    cases hyz
    exact .bool b
  | null =>
    cases hyz
    exact .null
  | function id =>
    cases hyz
    exact .function id
  | native named =>
    cases hyz with
    | native named' => exact .native (named.trans named')
  | object id =>
    cases hyz
    exact .object id
  | array related =>
    cases hyz with
    | array related' => exact .array ⟨_, related, related'⟩

end Value.Agree

namespace Store

/-- Two arrays are equally long and their items are related place by place. -/
structure ItemsRelated (store : Store) (R : Value → Value → Prop) (a b : ArrayId) : Prop where
  /-- They have as many items. -/
  length : (store.items a).size = (store.items b).size
  /-- Items at the same place are related. -/
  each : ∀ (i : Nat) (x y : Value), (store.items a)[i]? = some x → (store.items b)[i]? = some y →
    R x y

/-- What stands at a place of an array is one of its items. -/
theorem mem_items_of_getElem? {store : Store} {a : ArrayId} {i : Nat} {x : Value}
    (h : (store.items a)[i]? = some x) : x ∈ (store.items a).toList :=
  Array.mem_toList_iff.2 (Array.mem_of_getElem? h)

/-- Entering two arrays off the path, of which the first has an item, leaves fewer arrays
unvisited. -/
theorem unvisited_pair_lt {store : Store} {path : List ArrayId} {a b : ArrayId} {x : Value}
    (hx : x ∈ (store.items a).toList) (hp : ¬ (a ∈ path ∨ b ∈ path)) :
    store.unvisited (a :: b :: path) < store.unvisited path := by
  by_cases hab : a = b
  · subst hab
    refine Nat.lt_of_le_of_lt (unvisited_cons_le store (a :: path) a) ?_
    exact unvisited_cons_lt (lt_size_of_mem_items hx) fun ha => hp (.inl ha)
  · have hfirst : a ∉ b :: path := by
      rw [List.mem_cons]
      exact fun h => h.elim hab fun ha => hp (.inl ha)
    exact Nat.lt_of_lt_of_le (unvisited_cons_lt (lt_size_of_mem_items hx) hfirst)
      (unvisited_cons_le store path b)

/-- All pairs of items pass a test exactly when the items are related by it. -/
theorem itemsRelated_iff (store : Store) (test : Value → Value → Bool) (a b : ArrayId) :
    ((store.items a).toList.length == (store.items b).toList.length &&
        ((store.items a).toList.zip (store.items b).toList).all fun pair => test pair.1 pair.2) =
      true ↔ store.ItemsRelated (fun x y => test x y = true) a b := by
  rw [Bool.and_eq_true, beq_iff_eq, List.all_eq_true]
  constructor
  · rintro ⟨hlength, hall⟩
    refine ⟨by simpa using hlength, fun i x y hx hy => ?_⟩
    have hpair : ((store.items a).toList.zip (store.items b).toList)[i]? = some (x, y) :=
      List.getElem?_zip_eq_some.2 ⟨by simpa using hx, by simpa using hy⟩
    exact hall (x, y) (List.mem_of_getElem? hpair)
  · rintro ⟨hlength, heach⟩
    refine ⟨by simpa using hlength, fun pair hpair => ?_⟩
    obtain ⟨i, hi⟩ := List.mem_iff_getElem?.1 hpair
    obtain ⟨hx, hy⟩ := List.getElem?_zip_eq_some.1 hi
    exact heach i _ _ (by simpa using hx) (by simpa using hy)

/-- Two values are equal inside the arrays of a path when they agree, where two arrays are the same,
or are both off the path and have items that are equal inside them. -/
theorem equalWithin_iff {store : Store} {path : List ArrayId} {x y : Value} :
    store.equalWithin path x y = true ↔
      Value.Agree (fun a b => a = b ∨ (¬ (a ∈ path ∨ b ∈ path) ∧
        store.ItemsRelated (fun u v => store.equalWithin (a :: b :: path) u v = true) a b)) x y := by
  fun_cases store.equalWithin path x y with
  | case1 a b => exact ⟨.number, fun h => by cases h; assumption⟩
  | case2 a b =>
    rw [beq_iff_eq]
    exact ⟨fun h => h ▸ .text a, fun h => by cases h; rfl⟩
  | case3 a b =>
    rw [beq_iff_eq]
    exact ⟨fun h => h ▸ .bool a, fun h => by cases h; rfl⟩
  | case4 => exact ⟨fun _ => .null, fun _ => rfl⟩
  | case5 a => exact ⟨fun _ => .array (.inl rfl), fun _ => rfl⟩
  | case6 a b hab hp =>
    refine ⟨fun h => absurd h Bool.false_ne_true, fun h => ?_⟩
    cases h with
    | array related =>
      rcases related with rfl | ⟨hnot, -⟩
      · exact absurd rfl hab
      · exact absurd hp hnot
  | case7 a b hab hp xs ys =>
    have hitems : store.equalWithin path (.array a) (.array b) = _ := equalWithin_array hab hp
    rw [equalWithin, if_neg hab, dif_neg hp] at hitems
    rw [hitems, itemsRelated_iff]
    refine ⟨fun h => .array (.inr ⟨hp, h⟩), fun h => ?_⟩
    cases h with
    | array related =>
      rcases related with rfl | ⟨-, h⟩
      · exact absurd rfl hab
      · exact h
  | case8 a b =>
    rw [decide_eq_true_iff]
    exact ⟨fun h => h ▸ .function a, fun h => by cases h; rfl⟩
  | case9 f g =>
    rw [beq_iff_eq]
    exact ⟨.native, fun h => by cases h; assumption⟩
  | case10 a b =>
    rw [decide_eq_true_iff]
    exact ⟨fun h => h ▸ .object a, fun h => by cases h; rfl⟩
  | case11 x y hnumber htext hbool hnull harray hfunction hnative hobject =>
    refine ⟨fun h => absurd h Bool.false_ne_true, fun h => ?_⟩
    cases h with
    | number => exact (hnumber _ _ rfl rfl).elim
    | text => exact (htext _ _ rfl rfl).elim
    | bool => exact (hbool _ _ rfl rfl).elim
    | null => exact (hnull rfl rfl).elim
    | function => exact (hfunction _ _ rfl rfl).elim
    | native => exact (hnative _ _ rfl rfl).elim
    | object => exact (hobject _ _ rfl rfl).elim
    | array => exact (harray _ _ rfl rfl).elim

end Store

end QuantumScript
