import QuantumScript.Proofs.Value.Agree
import QuantumScript.Proofs.Value.Picture

/-!
# Walks through arrays end

Writing a value and comparing two values go through arrays with one path: the arrays that they enter
are put on it, and taken off when they are left. `writing` and `comparing` do just that, and nothing
in them says that they end. They are allowed a number of nested calls, and have no result if they
need more.

Whatever arrays hold each other, they need at most one call more than there are arrays, and the
comparison, which enters two arrays at a time, at most one more than half of that (`walks_end`). They
leave the path as they found it, and what they find is the text of the value and whether the values
are equal.
-/

namespace QuantumScript

/-- A walk through arrays, with the path of arrays that it is inside of. A walk that needs more
nested calls than it is allowed has no result. -/
abbrev Walk (α : Type) := StateT (List ArrayId) Option α

namespace Walk

variable {α β : Type} {around : List ArrayId}

/-- The arrays that the walk is inside of. -/
def path : Walk (List ArrayId) := get

/-- Enters some arrays for a walk and leaves them after it. -/
def inside (entered : List ArrayId) (walk : Walk α) : Walk α := do
  modify (entered ++ ·)
  let found ← walk
  modify (List.drop entered.length)
  return found

/-- A walk inside some arrays that comes back to them comes back to the arrays around them. -/
theorem run_inside {entered : List ArrayId} {walk : Walk α} {found : α}
    (h : walk.run (entered ++ around) = some (found, entered ++ around)) :
    (inside entered walk).run around = some (found, around) := by
  have hleft : (entered ++ around).drop entered.length = around := List.drop_left
  simp only [inside, StateT.run_bind, StateT.run_modify, Option.pure_def, Option.bind_eq_bind,
    Option.bind_some, h, hleft, StateT.run_pure]

/-- Walks through some things that each come back to the path come back to it together. -/
theorem run_mapM {things : List α} {walk : α → Walk β} {found : α → β}
    (h : ∀ x ∈ things, (walk x).run around = some (found x, around)) :
    (things.mapM walk).run around = some (things.map found, around) := by
  induction things with
  | nil => rfl
  | cons x things ih =>
    obtain ⟨hx, hthings⟩ := List.forall_mem_cons.1 h
    rw [List.mapM_cons, StateT.run_bind, hx]
    simp only [Option.bind_eq_bind, Option.bind_some, StateT.run_bind, ih hthings]
    rfl

/-- Tests of some things that each come back to the path come back to it together; those after a
failure are not made. -/
theorem run_allM {things : List α} {test : α → Walk Bool} {found : α → Bool}
    (h : ∀ x ∈ things, (test x).run around = some (found x, around)) :
    (things.allM test).run around = some (things.all found, around) := by
  induction things with
  | nil => rfl
  | cons x things ih =>
    obtain ⟨hx, hthings⟩ := List.forall_mem_cons.1 h
    rw [List.allM, StateT.run_bind, hx, List.all_cons]
    cases found x with
    | false => rfl
    | true => exact ih hthings

end Walk

namespace Store

variable {store : Store} {path : List ArrayId} {a b : ArrayId}

/-- Writes a value, with so many nested calls. -/
def writing (store : Store) : Nat → Bool → Value → Walk String
  | 0, _, _ => failure
  | limit + 1, nested, v =>
    match v with
    | .array id => do
      if id ∈ (← Walk.path) then
        return "[...]"
      let parts ← Walk.inside [id] ((store.items id).toList.mapM (store.writing limit true))
      return "[" ++ ", ".intercalate parts ++ "]"
    | v => StateT.lift (store.plainText? nested v)

/-- Compares two values, with so many nested calls. -/
def comparing (store : Store) : Nat → Value → Value → Walk Bool
  | 0, _, _ => failure
  | limit + 1, x, y =>
    match x, y with
    | .number a, .number b => return a == b
    | .text a, .text b => return a == b
    | .bool a, .bool b => return a == b
    | .null, .null => return true
    | .array a, .array b => do
      if a = b then
        return true
      let path ← Walk.path
      if a ∈ path ∨ b ∈ path then
        return false
      let xs := store.items a
      let ys := store.items b
      if xs.size ≠ ys.size then
        return false
      Walk.inside [a, b] ((xs.toList.zip ys.toList).allM fun pair =>
        store.comparing limit pair.1 pair.2)
    | .function a, .function b => return a = b
    | .native f, .native g => return f.name == g.name
    | .object a, .object b => return a = b
    | _, _ => return false

/-- At the start no array is visited. -/
theorem unvisited_nil (store : Store) : store.unvisited [] = store.arrays.size := by
  simp [unvisited]

/-- Entering two different arrays leaves two arrays fewer unvisited. -/
theorem unvisited_pair_add_two_le (ha : a.index < store.arrays.size)
    (hb : b.index < store.arrays.size) (hab : a ≠ b) (hp : ¬ (a ∈ path ∨ b ∈ path)) :
    store.unvisited (a :: b :: path) + 2 ≤ store.unvisited path := by
  have ha' : a ∉ b :: path := by
    rw [List.mem_cons]
    rintro (h | h)
    · exact hab h
    · exact hp (.inl h)
  have hsecond := unvisited_cons_lt hb fun h => hp (.inr h)
  have hfirst := unvisited_cons_lt ha ha'
  omega

/-- A value that is no array is written at once. -/
theorem run_writing_plain {nested : Bool} {v : Value} {text : String}
    (h : store.plainText? nested v = some text) (limit : Nat) :
    (store.writing (limit + 1) nested v).run path = some (text, path) := by
  cases v with
  | array id => cases h
  | _ => simp [writing, h]

/-- Writing ends with the text of the value if more calls may be nested than there are unvisited
arrays. -/
theorem run_writing {limit : Nat} {nested : Bool} {v : Value} (h : store.unvisited path < limit) :
    (store.writing limit nested v).run path = some (store.render path nested v, path) := by
  induction limit generalizing path nested v with
  | zero => omega
  | succ limit ih =>
    rcases store.array_or_plainText? nested v with ⟨id, rfl⟩ | ⟨text, htext⟩
    · by_cases hp : id ∈ path
      · rw [render_array_of_mem hp]
        simp [writing, Walk.path, hp]
      · have hitems : ∀ item ∈ (store.items id).toList,
            (store.writing limit true item).run ([id] ++ path) =
              some (store.render (id :: path) true item, [id] ++ path) := by
          intro item hitem
          have hfewer := unvisited_cons_lt (lt_size_of_mem_items hitem) hp
          have hlimit : store.unvisited ([id] ++ path) < limit := Nat.lt_of_lt_of_le hfewer (by omega)
          exact ih hlimit
        have hinside := Walk.run_inside (Walk.run_mapM hitems)
        rw [render_array hp]
        simp [writing, Walk.path, hp, hinside]
    · rw [render_of_plainText? htext, run_writing_plain htext]

/-- Comparing two arrays off the path ends if comparing their items does. -/
theorem run_comparing_arrays {limit : Nat} (hab : a ≠ b) (hp : ¬ (a ∈ path ∨ b ∈ path))
    (h : ∀ pair ∈ (store.items a).toList.zip (store.items b).toList,
      (store.comparing limit pair.1 pair.2).run ([a, b] ++ path) =
        some (store.equalWithin (a :: b :: path) pair.1 pair.2, [a, b] ++ path)) :
    (store.comparing (limit + 1) (.array a) (.array b)).run path =
      some (store.equalWithin path (.array a) (.array b), path) := by
  have hinside := Walk.run_inside (Walk.run_allM h)
  rw [equalWithin_array hab hp, Array.length_toList, Array.length_toList]
  by_cases hsize : (store.items a).size = (store.items b).size
  · rw [beq_iff_eq.2 hsize, Bool.true_and]
    simp [comparing, Walk.path, hab, hp, hsize, hinside]
  · rw [beq_eq_false_iff_ne.2 hsize, Bool.false_and]
    simp [comparing, Walk.path, hab, hsize]

/-- Comparing ends with whether the values are equal if more than half as many calls may be nested
as there are unvisited arrays. -/
theorem run_comparing {limit : Nat} {x y : Value} (h : store.unvisited path < 2 * limit) :
    (store.comparing limit x y).run path = some (store.equalWithin path x y, path) := by
  induction limit generalizing path x y with
  | zero => omega
  | succ limit ih =>
    -- Two arrays off the path are the only values whose comparison makes further calls.
    have harrays (a b : ArrayId) (hab : a ≠ b) (hp : ¬ (a ∈ path ∨ b ∈ path)) :
        (store.comparing (limit + 1) (.array a) (.array b)).run path =
          some (store.equalWithin path (.array a) (.array b), path) := by
      refine run_comparing_arrays hab hp fun pair hpair => ?_
      obtain ⟨hleft, hright⟩ := List.of_mem_zip hpair
      have hfewer := unvisited_pair_add_two_le (lt_size_of_mem_items hleft)
        (lt_size_of_mem_items hright) hab hp
      have hlimit : store.unvisited ([a, b] ++ path) < 2 * limit :=
        Nat.lt_of_add_lt_add_right (Nat.lt_of_le_of_lt hfewer h)
      exact ih hlimit
    fun_cases store.equalWithin path x y with
    | case5 a => simp [comparing]
    | case6 a b hab hp => simp [comparing, Walk.path, hab, hp]
    | case7 a b hab hp xs ys =>
      have hoff := harrays a b hab hp
      rw [equalWithin, if_neg hab, dif_neg hp] at hoff
      exact hoff
    | case11 x y hnumber htext hbool hnull harray hfunction hnative hobject =>
      rw [comparing]
      · rfl
      all_goals assumption
    | _ => rfl

/-- Writing and comparing end, whatever arrays hold each other. With one nested call more than there
are arrays, and any number beyond that, a value is written as `display` and `inspect` write it; with
one more than half as many, two values are compared as `equal` compares them; and the path is empty
again at the end. -/
theorem walks_end (store : Store) (x y : Value) (beyond : Nat) :
    (store.writing (store.arrays.size + 1 + beyond) false x).run [] = some (store.display x, []) ∧
      (store.writing (store.arrays.size + 1 + beyond) true x).run [] =
        some (store.inspect x, []) ∧
      (store.comparing (store.arrays.size / 2 + 1 + beyond) x y).run [] =
        some (store.equal x y, []) := by
  have hstart := store.unvisited_nil
  refine ⟨run_writing ?_, run_writing ?_, run_comparing ?_⟩
  · omega
  · omega
  · omega

/-- An array that is its own only item needs one call for itself and one for the item. -/
example :
    let store : Store := { initial with arrays := #[#[.array ⟨0⟩]] }
    (store.writing 1 false (.array ⟨0⟩)).run [] = none ∧
      (store.writing 2 false (.array ⟨0⟩)).run [] = some ("[[...]]", []) := by
  decide +kernel

end Store

end QuantumScript
