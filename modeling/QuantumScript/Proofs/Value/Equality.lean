import Mathlib.Logic.Relation
import QuantumScript.Proofs.Value.Agree

/-!
# Equality of values that hold no cycle

`Alike` compares values by their structure alone: two arrays are alike when they are the same, or
when they are equally long and their items are alike place by place. On values from which no array
on a cycle can be reached, `equal` holds exactly when the values are alike
(`Store.equal_iff_alike`): there the path that `equal` keeps never changes its answer.

The path holds arrays of both sides, so a comparison may come back to an array of its path although
there is no cycle: one array is then compared with another that lies inside it. Such arrays are
never alike (`Store.not_related_of_inside`), and no is the right answer.
-/

namespace QuantumScript

namespace Store

open Relation

variable {store : Store} {x y : Value} {a b c : ArrayId}

/-- An array has another among its items. -/
def Holds (store : Store) (outer inner : ArrayId) : Prop :=
  Value.array inner ∈ (store.items outer).toList

/-- An array can be reached from a value through the items of arrays. -/
def Reaches (store : Store) (x : Value) (id : ArrayId) : Prop :=
  ∃ first, x = .array first ∧ ReflTransGen store.Holds first id

/-- No array that can be reached from a value is on a cycle. -/
def CycleFree (store : Store) (x : Value) : Prop :=
  ∀ id, store.Reaches x id → ¬ TransGen store.Holds id id

/-- Values of the same structure. -/
inductive Alike (store : Store) : Value → Value → Prop
  /-- Equal numbers. -/
  | number {a b : Float} (equal : (a == b) = true) : Alike store (.number a) (.number b)
  /-- The same text. -/
  | text (s : String) : Alike store (.text s) (.text s)
  /-- The same truth value. -/
  | bool (b : Bool) : Alike store (.bool b) (.bool b)
  /-- `null`. -/
  | null : Alike store .null .null
  /-- The same function. -/
  | function (id : ClosureId) : Alike store (.function id) (.function id)
  /-- Library functions of the same name. -/
  | native {f g : Native} (named : f.name = g.name) : Alike store (.native f) (.native g)
  /-- The same object. -/
  | object (id : ObjectId) : Alike store (.object id) (.object id)
  /-- The same array. -/
  | same (id : ArrayId) : Alike store (.array id) (.array id)
  /-- Arrays of the same length whose items are alike place by place. -/
  | items {a b : ArrayId} (length : (store.items a).size = (store.items b).size)
    (each : ∀ (i : Nat) (x y : Value), (store.items a)[i]? = some x → (store.items b)[i]? = some y →
      Alike store x y) : Alike store (.array a) (.array b)

/-! ## Cycles -/

/-- What is an item of an array that holds no cycle holds none either. -/
theorem CycleFree.item (h : store.CycleFree (.array a)) (hx : x ∈ (store.items a).toList) :
    store.CycleFree x := by
  rintro id ⟨first, rfl, hreach⟩
  exact h id ⟨a, rfl, .head hx hreach⟩

/-- An array that holds no cycle does not lie inside itself. -/
theorem CycleFree.not_self (h : store.CycleFree (.array a)) : ¬ TransGen store.Holds a a :=
  h a ⟨a, rfl, .refl⟩

/-- From an array that holds no cycle, only finitely many steps lead from an array to an item. -/
theorem CycleFree.acc (h : store.CycleFree (.array a)) :
    Acc (fun inner outer => store.Holds outer inner) a := by
  -- The steps taken so far make a path of different arrays, of which the store has only so many.
  have hpath : ∀ (count : Nat) (path : List ArrayId) (a : ArrayId), store.unvisited path = count →
      (∀ c ∈ path, TransGen store.Holds c a) → store.CycleFree (.array a) →
        Acc (fun inner outer => store.Holds outer inner) a := by
    intro count
    induction count using Nat.strongRecOn with
    | ind count ih =>
      intro path a hcount habove hfree
      refine Acc.intro a fun b hb => ?_
      have hnew : a ∉ path := fun hmem => hfree.not_self (habove a hmem)
      have hfewer : store.unvisited (a :: path) < count :=
        hcount ▸ unvisited_cons_lt (lt_size_of_mem_items hb) hnew
      refine ih _ hfewer (a :: path) b rfl (fun c hc => ?_) (hfree.item hb)
      rcases List.mem_cons.1 hc with rfl | hc
      · exact .single hb
      · exact .tail (habove c hc) hb
  exact hpath _ [] a rfl (fun _ hc => absurd hc List.not_mem_nil) h

/-- Where every array holds only arrays made before it, no value holds a cycle. -/
theorem cycleFree_of_earlier (h : ∀ a b, store.Holds a b → b.index < a.index) :
    store.CycleFree x := by
  have hinside : ∀ a b, TransGen store.Holds a b → b.index < a.index := by
    intro a b hab
    induction hab with
    | single hab => exact h _ _ hab
    | tail _ hbc ih => exact Nat.lt_trans (h _ _ hbc) ih
  intro id _ hcycle
  exact Nat.lt_irrefl _ (hinside id id hcycle)

/-! ## Arrays inside one another -/

/-- A relation between values relates an array to nothing but itself and arrays of the same length
with related items. -/
def Itemwise (store : Store) (R : Value → Value → Prop) : Prop :=
  ∀ a y, R (.array a) y → ∃ b, y = .array b ∧
    (a = b ∨ ((store.items a).size = (store.items b).size ∧
      ∀ (i : Nat) (x y : Value), (store.items a)[i]? = some x → (store.items b)[i]? = some y →
        R x y))

/-- Being alike goes item by item. -/
theorem itemwise_alike : store.Itemwise store.Alike := by
  intro a y h
  cases h with
  | same => exact ⟨a, rfl, .inl rfl⟩
  | items length each => exact ⟨_, rfl, .inr ⟨length, each⟩⟩

/-- Being alike with the two sides exchanged goes item by item. -/
theorem itemwise_alike_swap : store.Itemwise fun x y => store.Alike y x := by
  intro a y h
  cases h with
  | same => exact ⟨a, rfl, .inl rfl⟩
  | items length each => exact ⟨_, rfl, .inr ⟨length.symm, fun i x y hx hy => each i y x hy hx⟩⟩

/-- An array without cycles is not related to an array that lies inside it. -/
theorem not_related_of_inside {R : Value → Value → Prop} (hR : store.Itemwise R)
    (hfree : store.CycleFree (.array a)) (hab : TransGen store.Holds a b) :
    ¬ R (.array a) (.array b) := by
  -- The item on the way to the inner array would be related to an item of the inner array, which
  -- lies inside that item in turn: so it would go on without end.
  induction hfree.acc generalizing b with
  | intro a _ ih =>
    intro h
    obtain ⟨b', hb', hsame | ⟨hlength, heach⟩⟩ := hR a _ h
    · cases hb'
      exact hfree.not_self (hsame ▸ hab)
    · cases hb'
      obtain ⟨c, hac, hcb⟩ := TransGen.head'_iff.1 hab
      obtain ⟨i, hi, hc⟩ := List.mem_iff_getElem.1 hac
      rw [Array.length_toList] at hi
      have hitem : (store.items a)[i]? = some (.array c) := by
        rw [Array.getElem?_eq_getElem hi, ← hc, Array.getElem_toList]
      have hother : (store.items b)[i]? = some (store.items b)[i] := Array.getElem?_eq_getElem _
      have hrelated := heach i _ _ hitem hother
      obtain ⟨d, hd, -⟩ := hR c _ hrelated
      have hbd : store.Holds b d := by
        unfold Holds
        rw [← hd]
        exact Array.getElem_mem_toList _
      rw [hd] at hrelated
      exact ih c hac (hfree.item hac) (TransGen.tail' hcb hbd) hrelated

/-! ## The comparison -/

/-- An array has a value among its items, or among those of an array inside it. -/
def Above (store : Store) (c : ArrayId) (x : Value) : Prop :=
  ∃ d, ReflTransGen store.Holds c d ∧ x ∈ (store.items d).toList

/-- What is above an array has it inside. -/
theorem Above.holds (h : store.Above c (.array a)) : TransGen store.Holds c a := by
  obtain ⟨d, hcd, hd⟩ := h
  exact TransGen.tail' hcd hd

/-- What is above an array is above its items. -/
theorem Above.item (h : store.Above c (.array a)) (hx : x ∈ (store.items a).toList) :
    store.Above c x :=
  ⟨a, h.holds.to_reflTransGen, hx⟩

/-- Two arrays that hold no cycle are not related when a path of arrays above them holds one of
them. -/
theorem not_related_of_path {R : Value → Value → Prop} (hR : store.Itemwise R)
    (hswap : store.Itemwise fun x y => R y x) {path : List ArrayId}
    (hx : store.CycleFree (.array a)) (hy : store.CycleFree (.array b)) (hp : a ∈ path ∨ b ∈ path)
    (habove : ∀ c ∈ path, store.Above c (.array a) ∨ store.Above c (.array b)) :
    ¬ R (.array a) (.array b) := by
  rcases hp with hp | hp
  · rcases habove a hp with h | h
    · exact absurd h.holds hx.not_self
    · exact not_related_of_inside hR hx h.holds
  · rcases habove b hp with h | h
    · exact not_related_of_inside (R := fun x y => R y x) hswap hy h.holds
    · exact absurd h.holds hy.not_self

/-- What was above one of two arrays is above an item of it, and each of the two is above its own
items. -/
theorem above_items {path : List ArrayId} {u v : Value}
    (habove : ∀ c ∈ path, store.Above c (.array a) ∨ store.Above c (.array b))
    (hu : u ∈ (store.items a).toList) (hv : v ∈ (store.items b).toList) :
    ∀ c ∈ a :: b :: path, store.Above c u ∨ store.Above c v := by
  intro c hc
  rcases List.mem_cons.1 hc with rfl | hc
  · exact .inl ⟨c, .refl, hu⟩
  rcases List.mem_cons.1 hc with rfl | hc
  · exact .inr ⟨c, .refl, hv⟩
  rcases habove c hc with h | h
  · exact .inl (h.item hu)
  · exact .inr (h.item hv)

/-- Values are alike when they agree, where two arrays are the same or have items that are
alike. -/
theorem alike_iff_agree :
    store.Alike x y ↔ Value.Agree (fun a b => a = b ∨ store.ItemsRelated store.Alike a b) x y := by
  constructor
  · intro h
    cases h with
    | number equal => exact .number equal
    | text s => exact .text s
    | bool b => exact .bool b
    | null => exact .null
    | function id => exact .function id
    | native named => exact .native named
    | object id => exact .object id
    | same id => exact .array (.inl rfl)
    | items length each => exact .array (.inr ⟨length, each⟩)
  · intro h
    cases h with
    | number equal => exact .number equal
    | text s => exact .text s
    | bool b => exact .bool b
    | null => exact .null
    | function id => exact .function id
    | native named => exact .native named
    | object id => exact .object id
    | array related =>
      rcases related with rfl | related
      · exact .same _
      · exact .items related.length related.each

/-- Two values that hold no cycle are equal inside the arrays of a path exactly when they are alike,
if the path holds only arrays that are above one of them. -/
theorem equalWithin_iff_alike {path : List ArrayId} (hx : store.CycleFree x)
    (hy : store.CycleFree y) (habove : ∀ c ∈ path, store.Above c x ∨ store.Above c y) :
    store.equalWithin path x y = true ↔ store.Alike x y := by
  induction hcount : store.unvisited path using Nat.strongRecOn generalizing path x y with
  | ind count ih =>
    subst hcount
    -- Below two arrays off the path, the comparison answers for their items.
    have hitems : ∀ a b, x = .array a → y = .array b → ¬ (a ∈ path ∨ b ∈ path) →
        ∀ (i : Nat) (u v : Value), (store.items a)[i]? = some u → (store.items b)[i]? = some v →
          (store.equalWithin (a :: b :: path) u v = true ↔ store.Alike u v) := by
      rintro a b rfl rfl hp i u v hi hj
      have hu := mem_items_of_getElem? hi
      have hv := mem_items_of_getElem? hj
      exact ih _ (unvisited_pair_lt hu hp) (hx.item hu) (hy.item hv) (above_items habove hu hv) rfl
    rw [equalWithin_iff, alike_iff_agree]
    constructor
    · intro h
      refine h.imp fun a b hxa hyb hab => ?_
      rcases hab with hab | ⟨hp, hrelated⟩
      · exact .inl hab
      · exact .inr ⟨hrelated.length, fun i u v hu hv =>
          (hitems a b hxa hyb hp i u v hu hv).1 (hrelated.each i u v hu hv)⟩
    · intro h
      refine h.imp fun a b hxa hyb hab => ?_
      subst hxa hyb
      have hp : ¬ (a ∈ path ∨ b ∈ path) := fun hp =>
        not_related_of_path itemwise_alike itemwise_alike_swap hx hy hp habove
          (alike_iff_agree.2 h)
      rcases hab with hab | hrelated
      · exact .inl hab
      · exact .inr ⟨hp, hrelated.length, fun i u v hu hv =>
          (hitems a b rfl rfl hp i u v hu hv).2 (hrelated.each i u v hu hv)⟩

/-- Values that hold no cycle are equal exactly when they are alike. -/
theorem equal_iff_alike (store : Store) {x y : Value} (hx : store.CycleFree x)
    (hy : store.CycleFree y) : store.equal x y = true ↔ store.Alike x y :=
  equalWithin_iff_alike hx hy fun _ hc => absurd hc List.not_mem_nil

/-- Three arrays of which each is the only item of the next. -/
def nestedArrays : Store :=
  { initial with arrays := #[#[], #[.array ⟨0⟩], #[.array ⟨1⟩]] }

/-- The last of three nested arrays is compared with the one inside it. -/
theorem equal_iff_alike_nested :
    nestedArrays.CycleFree (.array ⟨2⟩) ∧ nestedArrays.CycleFree (.array ⟨1⟩) ∧
      nestedArrays.equal (.array ⟨2⟩) (.array ⟨1⟩) = false ∧
        ¬ nestedArrays.Alike (.array ⟨2⟩) (.array ⟨1⟩) := by
  have hearlier : ∀ a b, nestedArrays.Holds a b → b.index < a.index := by
    rintro ⟨_ | _ | _ | a⟩ b hab <;> simp [Holds, items, nestedArrays] at hab <;> simp [hab]
  -- The items are two arrays of which the first is on the path.
  have hitems : nestedArrays.equalWithin [⟨2⟩, ⟨1⟩] (.array ⟨1⟩) (.array ⟨0⟩) = false := by
    rw [equalWithin, if_neg (by decide), dif_pos (by decide)]
  have hdiffer : nestedArrays.equal (.array ⟨2⟩) (.array ⟨1⟩) = false := by
    rw [equal, equalWithin_array (by decide) (by decide)]
    show (nestedArrays.equalWithin [⟨2⟩, ⟨1⟩] (.array ⟨1⟩) (.array ⟨0⟩) && true) = false
    rw [hitems]
    rfl
  refine ⟨cycleFree_of_earlier hearlier, cycleFree_of_earlier hearlier, hdiffer, fun h => ?_⟩
  have hequal := (equal_iff_alike nestedArrays (cycleFree_of_earlier hearlier)
    (cycleFree_of_earlier hearlier)).2 h
  rw [hdiffer] at hequal
  cases hequal

end Store

end QuantumScript
