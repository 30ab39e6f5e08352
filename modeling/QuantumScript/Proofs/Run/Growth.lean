import QuantumScript.Proofs.Run.Library
import QuantumScript.Proofs.Store.WellFormed

/-!
# What operators and library calls keep

A machine grows if its store does, if nothing that was shown is taken back, and if lines of input
are only taken from the front. On a machine with a well-formed store, every function of the library
and every method lets the machine grow, keeps its store well-formed and yields a value that exists,
if its arguments do (`Native.call_sound`, `Method.call_sound`). Operators, members and indices yield
values that exist.
-/

namespace QuantumScript

namespace Machine

/-- A machine keeps what is in the store of another and all that it has shown, and takes lines of
input from the front. -/
structure Grows (m after : Machine) : Prop where
  /-- The store keeps what is in it. -/
  store : m.store.Grows after.store
  /-- What is shown is added at the end. -/
  shown : m.console.shown.toList <+: after.console.shown.toList
  /-- Lines of input are taken from the front. -/
  pending : after.console.pending <:+ m.console.pending

/-- A machine keeps what it has. -/
theorem Grows.refl (m : Machine) : m.Grows m :=
  ⟨.refl _, List.prefix_refl _, List.suffix_refl _⟩

/-- What is kept twice is kept. -/
theorem Grows.trans {m mid after : Machine} (first : m.Grows mid) (second : mid.Grows after) :
    m.Grows after :=
  ⟨first.store.trans second.store, first.shown.trans second.shown,
    second.pending.trans first.pending⟩

/-- A machine grows to one with a well-formed store. -/
structure Becomes (m after : Machine) : Prop where
  /-- It grows. -/
  grows : m.Grows after
  /-- The store is well-formed. -/
  wellFormed : after.store.WellFormed

namespace Becomes

variable {m mid after : Machine}

/-- A machine with a well-formed store may stay as it is. -/
theorem refl (h : m.store.WellFormed) : m.Becomes m :=
  ⟨.refl m, h⟩

/-- Changes one after the other. -/
theorem trans (first : m.Becomes mid) (second : mid.Becomes after) : m.Becomes after :=
  ⟨first.grows.trans second.grows, second.wellFormed⟩

/-- A change of the store alone. -/
theorem of_store {store : Store} (hgrows : m.store.Grows store) (h : store.WellFormed) :
    m.Becomes { m with store } :=
  ⟨⟨hgrows, List.prefix_refl _, List.suffix_refl _⟩, h⟩

/-- A change of the count of function bodies alone. -/
theorem count (h : m.store.WellFormed) (depth : Nat) : m.Becomes { m with depth } :=
  ⟨⟨.refl _, List.prefix_refl _, List.suffix_refl _⟩, h⟩

end Becomes

end Machine

/-! ## Operators -/

namespace Store

variable {store : Store} {value : Value}

/-- What stands for a name exists. -/
theorem WellFormed.livesIn_of_get (h : store.WellFormed) {id : ScopeId} {name : String}
    (hget : store.get id name = .ok value) : value.LivesIn store := by
  unfold get at hget
  split at hget
  · rename_i found hfound
    cases hget
    exact h.livesIn_of_get? hfound
  · cases hget

/-- What a binary operator makes of two numbers exists. -/
theorem livesIn_of_arithmetic {op : BinaryOp} {a b : Float} (h : arithmetic op a b = .ok value) :
    value.LivesIn store := by
  unfold arithmetic at h
  split at h
  case h_4 | h_5 =>
    split at h
    · cases h
    · cases h
      trivial
  all_goals
    cases h
    trivial

/-- What a binary operator makes of two values exists. -/
theorem livesIn_of_binary {op : BinaryOp} {left right : Value}
    (h : store.binary op left right = .ok value) : value.LivesIn store := by
  unfold binary at h
  split at h
  · cases h
    trivial
  · cases h
    trivial
  · split at h
    · exact livesIn_of_arithmetic h
    · split at h
      · cases h
        trivial
      · cases h

/-- What a unary operator makes of a value exists. -/
theorem livesIn_of_unary {op : UnaryOp} {operand : Value} (h : store.unary op operand = .ok value) :
    value.LivesIn store := by
  cases op with
  | not =>
    cases h
    trivial
  | neg =>
    cases operand with
    | number n =>
      cases h
      trivial
    | _ => cases h

/-- The item of an array at a place is one of its items. -/
theorem mem_of_itemAt {items : Array Value} {place : Int} (h : itemAt items place = .ok value) :
    value ∈ items := by
  unfold itemAt at h
  split at h
  · rename_i item hitem
    cases h
    split at hitem
    · exact Array.mem_of_getElem? hitem
    · cases hitem
  · cases h

/-- What an index finds exists. -/
theorem WellFormed.livesIn_of_index (h : store.WellFormed) {object place : Value}
    (hindex : store.index object place = .ok value) : value.LivesIn store := by
  unfold index at hindex
  split at hindex
  · rename_i id
    cases hplace : store.indexPlace place with
    | error cause =>
      rw [hplace] at hindex
      cases hindex
    | ok found =>
      rw [hplace] at hindex
      exact h.items id value (mem_of_itemAt hindex)
  · cases hindex

/-- The members of an object exist. -/
theorem livesIn_of_member? {o : Object} {name : String} (h : o.member? name = some value) :
    value.LivesIn store := by
  unfold Object.member? at h
  split at h
  all_goals
    cases h
    try trivial

/-- The members of a value exist. -/
theorem livesIn_of_member {object : Value} {name : String}
    (h : store.member object name = .ok value) : value.LivesIn store := by
  unfold member at h
  dsimp only at h
  split at h
  · rename_i found hfound
    cases h
    split at hfound
    case h_3 =>
      obtain ⟨o, -, hmember⟩ := Option.bind_eq_some_iff.1 hfound
      exact livesIn_of_member? hmember
    all_goals
      cases hfound
      try trivial
  · cases h

end Store

/-! ## Functions of the library -/

namespace Native

variable {m : Machine} {value : Value}

/-- What a call on a machine yields and leaves: a machine that has grown, and a value that exists
there. -/
def Sound (m : Machine) (result : Result) : Prop :=
  m.Becomes result.2 ∧ ∀ value, result.1 = .ok value → value.LivesIn result.2.store

/-- A call may yield something that exists where the machine has come to. -/
theorem sound_ok {after : Machine} (h : m.Becomes after) (hvalue : value.LivesIn after.store) :
    Sound m (.ok value, after) := by
  refine ⟨h, ?_⟩
  rintro _ ⟨⟩
  exact hvalue

/-- A value as a number exists. -/
theorem toNumber_livesIn (store : Store) (given : Value) : (toNumber given).LivesIn store := by
  unfold toNumber
  split
  case h_2 s => cases Decimal.read? (Text.trim s) <;> trivial
  all_goals trivial

/-- An object that is found exists. -/
theorem livesIn_of_object? {store : Store} {id : ObjectId} {o : Object}
    (h : store.object? id = some o) : (Value.object id).LivesIn store :=
  (Array.getElem?_eq_some_iff.1 h).1

/-- A qubit among the arguments exists. -/
theorem livesIn_of_qubitArg {store : Store} {function : String} {given : Value}
    {found : ObjectId × Qubit} (h : qubitArg store function given = .ok found) :
    (Value.object found.1).LivesIn store := by
  unfold qubitArg at h
  split at h
  · split at h
    · rename_i hobject
      cases h
      exact livesIn_of_object? hobject
    · cases h
  · cases h

/-- A chakra among the arguments exists. -/
theorem livesIn_of_chakraArg {store : Store} {function : String} {given : Value}
    {found : ObjectId × Chakra} (h : chakraArg store function given = .ok found) :
    (Value.object found.1).LivesIn store := by
  unfold chakraArg at h
  split at h
  · split at h
    · rename_i hobject
      cases h
      exact livesIn_of_object? hobject
    · cases h
  · cases h

/-- An energy among the arguments exists. -/
theorem livesIn_of_energyArg {store : Store} {function : String} {given : Value}
    {found : ObjectId × Energy} (h : energyArg store function given = .ok found) :
    (Value.object found.1).LivesIn store := by
  unfold energyArg at h
  split at h
  · split at h
    · rename_i hobject
      cases h
      exact livesIn_of_object? hobject
    · cases h
  · cases h

variable (hm : m.store.WellFormed)
include hm

/-- A call may fail and leave the machine as it is. -/
theorem sound_error (cause : Cause) : Sound m (.error cause, m) :=
  ⟨.refl hm, nofun⟩

/-- A call may yield something that exists and leave the machine as it is. -/
theorem sound_same (hvalue : value.LivesIn m.store) : Sound m (.ok value, m) :=
  sound_ok (.refl hm) hvalue

/-- A call that first reads an argument is sound if it goes on like that. -/
theorem sound_reading {α : Type} {argument : Except Cause α} {next : α → Result}
    (h : ∀ a, argument = .ok a → Sound m (next a)) : Sound m (reading m argument next) := by
  unfold reading
  cases argument with
  | ok a => exact h a rfl
  | error cause => exact sound_error hm cause

/-- A call may make an array of items that exist. -/
theorem sound_newArray {items : Array Value} (h : ∀ item ∈ items, item.LivesIn m.store) :
    Sound m (.ok (m.newArray items).1, (m.newArray items).2) :=
  sound_ok (.of_store (Store.grows_newArray m.store items) (hm.newArray h))
    (by simp [Machine.newArray, Store.newArray, Value.LivesIn])

/-- A call may make an object. -/
theorem sound_newObject (object : Object) :
    Sound m (.ok (m.newObject object).1, (m.newObject object).2) :=
  sound_ok (.of_store (Store.grows_newObject m.store object) (hm.newObject object))
    (by simp [Machine.newObject, Store.newObject, Value.LivesIn])

/-- A call may add an item to an array and yield the array. -/
theorem sound_addItem {id : ArrayId} {item : Value} (hid : (Value.array id).LivesIn m.store)
    (hitem : item.LivesIn m.store) :
    Sound m (.ok (.array id), m.mapStore fun store => store.push id item) :=
  have hgrows := Store.grows_push m.store id item
  sound_ok (.of_store hgrows (hm.push id hitem)) (hgrows.livesIn hid)

/-- A call may remove the last item of an array and yield it, or `null` if there is none. -/
theorem sound_removeItem (id : ArrayId) :
    Sound m (.ok ((m.store.items id).back?.getD .null), m.mapStore fun store => store.pop id) := by
  have hgrows := Store.grows_pop m.store id
  refine sound_ok (.of_store hgrows (hm.pop id)) (hgrows.livesIn ?_)
  cases hlast : (m.store.items id).back? with
  | none => trivial
  | some last => exact hm.items id last (Array.mem_of_back? hlast)

/-- A machine may put an object in the place of another. -/
theorem becomes_setObject (id : ObjectId) (object : Object) :
    m.Becomes (m.mapStore fun store => store.setObject id object) :=
  .of_store (Store.grows_setObject m.store id object) (hm.setObject id object)

/-- A call may put an object in the place of another and yield it. -/
theorem sound_setObject {id : ObjectId} (hid : (Value.object id).LivesIn m.store)
    (object : Object) :
    Sound m (.ok (.object id), m.mapStore fun store => store.setObject id object) :=
  sound_ok (becomes_setObject hm id object)
    ((Store.grows_setObject m.store id object).livesIn hid)

/-- Showing values adds to what is shown. -/
theorem print_sound (args : List Value) : Sound m (print args m) := by
  refine sound_ok ⟨⟨.refl _, ?_, List.suffix_refl _⟩, hm⟩ trivial
  simp [Console.writeLine]

/-- Taking a line of input takes it from the front. -/
theorem input_sound (question : Option Value) : Sound m (input question m) := by
  have hpending := (Modest.leaves (.inr ⟨question, rfl⟩) m).2.2.2
  have hshown : m.console.shown.toList <+: (input question m).2.console.shown.toList := by
    unfold input Console.readLine
    cases m.console.pending <;> simp
  have hline (line : Option String) : ((line.map Value.text).getD .null).LivesIn m.store := by
    cases line <;> trivial
  refine ⟨⟨⟨.refl _, hshown, hpending⟩, hm⟩, ?_⟩
  rintro _ ⟨⟩
  exact hline _

/-- A length exists. -/
theorem len_sound (given : Value) : Sound m (len given m) := by
  unfold len
  split
  · exact sound_same hm trivial
  · exact sound_error hm _

/-- Adding an item that exists yields an array that exists. -/
theorem push_sound {given item : Value} (hgiven : given.LivesIn m.store)
    (hitem : item.LivesIn m.store) : Sound m (push given item m) := by
  unfold push
  split
  · exact sound_addItem hm hgiven hitem
  · exact sound_error hm _

/-- The item that is removed exists. -/
theorem pop_sound (given : Value) : Sound m (pop given m) := by
  unfold pop
  split
  · exact sound_removeItem hm _
  · exact sound_error hm _

/-- A range is an array of numbers. -/
theorem range_sound (start stop step : Float) : Sound m (range start stop step m) := by
  unfold range
  dsimp only
  split
  · exact sound_error hm _
  · split
    · exact sound_error hm _
    · refine sound_newArray hm fun item hmem => ?_
      obtain ⟨i, -, rfl⟩ := Array.mem_map.1 hmem
      trivial

/-- The core functions are sound. -/
theorem Core.run_sound (f : Core) {args : List Value} (hargs : ∀ arg ∈ args, arg.LivesIn m.store) :
    Sound m (f.run args m) := by
  unfold Core.run
  -- The cases are those of the function and of the number of its arguments.
  split
  · exact print_sound hm _
  · exact input_sound hm _
  · exact input_sound hm _
  · exact sound_same hm (toNumber_livesIn _ _)
  · exact sound_same hm trivial
  · exact sound_same hm trivial
  · exact sound_reading hm fun _ _ => sound_same hm trivial
  · exact len_sound hm _
  · exact push_sound hm (hargs _ (by simp)) (hargs _ (by simp))
  · exact pop_sound hm _
  · exact sound_same hm trivial
  · exact sound_reading hm fun _ _ => range_sound hm _ _ _
  · exact sound_reading hm fun _ _ => sound_reading hm fun _ _ => range_sound hm _ _ _
  · exact sound_reading hm fun _ _ => sound_reading hm fun _ _ => sound_reading hm fun _ _ =>
      range_sound hm _ _ _
  · exact sound_error hm _

/-- New rows are arrays that exist, beside those that were there. -/
theorem newRows_sound (cols : Nat) {fill : Value} (count : Nat) {taken : Array Value}
    (hfill : fill.LivesIn m.store) (htaken : ∀ row ∈ taken, row.LivesIn m.store) :
    m.Becomes (newRows cols fill count taken m).2 ∧
      ∀ row ∈ (newRows cols fill count taken m).1,
        row.LivesIn (newRows cols fill count taken m).2.store := by
  induction count generalizing taken m with
  | zero => exact ⟨.refl hm, htaken⟩
  | succ count ih =>
    have hrow : ∀ item ∈ Array.replicate cols fill, item.LivesIn m.store := by
      intro item hmem
      rw [Array.eq_of_mem_replicate hmem]
      exact hfill
    obtain ⟨hbecomes, hnew⟩ := sound_newArray hm hrow
    have hgrows := hbecomes.grows.store
    have hrows : ∀ row ∈ taken.push (m.newArray (Array.replicate cols fill)).1,
        row.LivesIn (m.newArray (Array.replicate cols fill)).2.store := by
      intro row hmem
      rcases Array.mem_push.1 hmem with hmem | rfl
      · exact hgrows.livesIn (htaken row hmem)
      · exact hnew _ rfl
    obtain ⟨hrest, hall⟩ := ih hbecomes.wellFormed (hgrows.livesIn hfill) hrows
    exact ⟨hbecomes.trans hrest, hall⟩

/-- A matrix is an array of arrays that exist. -/
theorem createMatrix_sound (rows cols : Float) {fill : Value} (hfill : fill.LivesIn m.store) :
    Sound m (createMatrix rows cols fill m) := by
  unfold createMatrix matrix
  split
  · exact ⟨.refl hm, nofun⟩
  · have hnone : ∀ row ∈ (#[] : Array Value), row.LivesIn m.store := nofun
    obtain ⟨hbecomes, hrows⟩ := newRows_sound hm (Number.truncateCount cols)
      (Number.truncateCount rows) hfill hnone
    obtain ⟨hlast, hvalue⟩ := sound_newArray hbecomes.wellFormed hrows
    exact ⟨hbecomes.trans hlast, hvalue⟩

/-- Measuring a qubit yields a number. -/
theorem measureQubit_sound (id : ObjectId) (q : Qubit) : Sound m (measureQubit id q m) := by
  unfold measureQubit
  have hbecomes := becomes_setObject hm id (.qubit (Qubit.collapsed (q.observe m.dice.draw.1)))
  exact sound_ok ⟨⟨hbecomes.grows.store, List.prefix_refl _, List.suffix_refl _⟩,
    hbecomes.wellFormed⟩ trivial

/-- Two qubits may be changed one after the other. -/
theorem entangle_sound (first second : ObjectId × Qubit) : Sound m (entangle first second m) := by
  have hfirst := becomes_setObject hm first.1
  exact sound_ok ((hfirst _).trans (becomes_setObject (hfirst _).wellFormed second.1 _)) trivial

/-- The quantum functions are sound. -/
theorem Quantum.run_sound (f : Quantum) {args : List Value}
    (hargs : ∀ arg ∈ args, arg.LivesIn m.store) : Sound m (f.run args m) := by
  unfold Quantum.run
  split
  iterate 3 exact sound_reading hm fun _ _ => sound_reading hm fun _ _ => sound_newObject hm _
  · exact sound_reading hm fun _ h => sound_setObject hm (livesIn_of_qubitArg h) _
  · exact sound_reading hm fun _ _ => measureQubit_sound hm _ _
  · exact sound_reading hm fun _ _ => sound_reading hm fun _ _ => entangle_sound hm _ _
  · exact sound_reading hm fun _ h => sound_reading hm fun _ _ => sound_reading hm fun _ _ =>
      sound_setObject hm (livesIn_of_qubitArg h) _
  · exact sound_reading hm fun _ _ => sound_same hm trivial
  · exact sound_reading hm fun _ _ => sound_same hm trivial
  · exact sound_reading hm fun _ _ => sound_reading hm fun _ _ =>
      createMatrix_sound hm _ _ trivial
  · exact sound_reading hm fun _ _ => sound_reading hm fun _ _ =>
      createMatrix_sound hm _ _ (hargs _ (by simp))
  · exact sound_error hm _

/-- Giving guidance yields a text. -/
theorem higherSelfGuide_sound : Sound m (higherSelfGuide m) :=
  sound_ok ⟨⟨.refl _, List.prefix_refl _, List.suffix_refl _⟩, hm⟩ trivial

/-- The spiritual functions are sound. -/
theorem Spiritual.run_sound (f : Spiritual) (args : List Value) : Sound m (f.run args m) := by
  unfold Spiritual.run
  split
  iterate 3 exact sound_reading hm fun _ _ => sound_newObject hm _
  iterate 4 exact sound_reading hm fun _ _ => sound_reading hm fun _ _ =>
    sound_reading hm fun _ _ => sound_newObject hm _
  iterate 2 exact sound_reading hm fun _ h => sound_reading hm fun _ _ =>
    sound_setObject hm (livesIn_of_chakraArg h) _
  iterate 3 exact sound_reading hm fun _ h => sound_reading hm fun _ _ =>
    sound_setObject hm (livesIn_of_energyArg h) _
  iterate 3 exact sound_same hm trivial
  · exact sound_reading hm fun _ _ => sound_same hm trivial
  iterate 3 exact sound_same hm trivial
  · exact sound_reading hm fun _ _ => sound_same hm trivial
  · exact higherSelfGuide_sound hm
  · exact sound_error hm _

/-- The functions of the library are sound. -/
theorem call_sound (f : Native) {args : List Value} (hargs : ∀ arg ∈ args, arg.LivesIn m.store) :
    Sound m (f.call args m) := by
  unfold call
  split
  · cases f with
    | core f => exact f.run_sound hm hargs
    | quantum f => exact f.run_sound hm hargs
    | spiritual f => exact f.run_sound hm args
  · exact sound_error hm _

end Native

/-! ## Methods -/

namespace Method

open Native

variable {m : Machine} (hm : m.store.WellFormed)
include hm

/-- The methods of arrays are sound. -/
theorem ofArray_sound {id : ArrayId} (hid : (Value.array id).LivesIn m.store) (method : String)
    {args : List Value} (hargs : ∀ arg ∈ args, arg.LivesIn m.store) :
    Sound m (ofArray id method args m) := by
  unfold ofArray
  split
  · exact sound_addItem hm hid (hargs _ (by simp))
  · exact sound_error hm _
  · exact sound_removeItem hm id
  · exact sound_error hm _
  · exact sound_same hm trivial
  · exact sound_error hm _
  · exact sound_error hm _

/-- The methods of texts are sound. -/
theorem ofText_sound (s method : String) (args : List Value) :
    Sound m (ofText s method args m) := by
  unfold ofText
  split
  iterate 2 exact sound_same hm trivial
  all_goals exact sound_error hm _

/-- The methods of objects are sound. -/
theorem ofObject_sound {id : ObjectId} (hid : (Value.object id).LivesIn m.store) (method : String)
    (args : List Value) : Sound m (call (.object id) method args m) := by
  unfold call
  dsimp only
  split
  · unfold ofQubit
    split
    · exact measureQubit_sound hm _ _
    · exact sound_setObject hm hid _
    all_goals exact sound_error hm _
  · unfold ofChakra
    dsimp only
    split
    iterate 2 exact sound_reading hm fun _ _ => sound_setObject hm hid _
    all_goals exact sound_error hm _
  · unfold ofEnergy
    split
    · exact sound_reading hm fun _ _ => sound_setObject hm hid _
    all_goals exact sound_error hm _
  · exact sound_error hm _

/-- The methods are sound. -/
theorem call_sound {object : Value} (hobject : object.LivesIn m.store) (method : String)
    {args : List Value} (hargs : ∀ arg ∈ args, arg.LivesIn m.store) :
    Sound m (call object method args m) := by
  cases object with
  | array id => exact ofArray_sound hm hobject method hargs
  | text s => exact ofText_sound hm s method args
  | object id => exact ofObject_sound hm hobject method args
  | _ => exact sound_error hm _

end Method

end QuantumScript
