import QuantumScript.Method
import QuantumScript.Native.Call
import QuantumScript.Operator

/-!
# What library calls see of a machine

A function of the library or a method works on arrays, objects, what is shown and the draws. It sees
no scope, no body of a closure, no depth and no line of input, and leaves all of them as they are:
amid other ones, it does the same (`Native.Oblivious`). All it sees of closures are their names,
which it may show. The one exception is `input`, which takes a line of input and nothing else
(`Native.call_modest`).
-/

namespace QuantumScript

/-- A store with the scopes and closures of another. -/
def Store.withCode (store other : Store) : Store :=
  { store with scopes := other.scopes, closures := other.closures }

/-- A machine amid the scopes, closures, depth and lines of input of another. -/
def Machine.amid (m other : Machine) : Machine :=
  { m with
    store := m.store.withCode other.store
    console := { m.console with pending := other.console.pending }
    depth := other.depth }

/-- Two stores have closures of the same names in the same places. -/
def Store.SameNames (store other : Store) : Prop :=
  ∀ id, (other.closure? id).map Closure.name = (store.closure? id).map Closure.name

namespace Store

variable {store other : Store}

/-- The text of a value depends on no scope and no body. -/
theorem render_withCode (h : store.SameNames other) (path : List ArrayId) (nested : Bool)
    (value : Value) :
    (store.withCode other).render path nested value = store.render path nested value := by
  -- The induction follows the walk through the arrays, which both stores share.
  induction path, nested, value using Store.render.induct store with
  | case7 path nested id hp => rw [render, render, dif_pos hp, dif_pos hp]
  | case8 path nested id hp hid ih =>
    have hid' : id.index < (store.withCode other).arrays.size := hid
    rw [render, render, dif_neg hp, dif_neg hp, dif_pos hid, dif_pos hid']
    simp only [ih]
    rfl
  | case9 path nested id hp hid =>
    have hid' : ¬ id.index < (store.withCode other).arrays.size := hid
    rw [render, render, dif_neg hp, dif_neg hp, dif_neg hid, dif_neg hid']
  | case10 path nested id =>
    have hname : ((store.withCode other).closure? id).map Closure.name =
        (store.closure? id).map Closure.name := h id
    rw [render, render, hname]
  | case12 path nested id =>
    rw [render, render]
    rfl
  | _ => rw [render, render]

/-- Whether two values are equal depends on no scope and no closure. -/
theorem equalWithin_withCode (path : List ArrayId) (x y : Value) :
    (store.withCode other).equalWithin path x y = store.equalWithin path x y := by
  -- The induction follows the walk through the arrays, which both stores share.
  induction path, x, y using Store.equalWithin.induct store with
  | case5 path a => rw [equalWithin, equalWithin, if_pos rfl, if_pos rfl]
  | case6 path a b hab hp =>
    rw [equalWithin, equalWithin, if_neg hab, if_neg hab, dif_pos hp, dif_pos hp]
  | case7 path a b hab hp xs ys ih =>
    have hitems (id : ArrayId) : (store.withCode other).items id = store.items id := rfl
    rw [equalWithin_array hab hp, equalWithin_array hab hp, hitems, hitems]
    refine congrArg _ (Bool.eq_iff_iff.2 ?_)
    rw [List.all_eq_true, List.all_eq_true]
    exact forall₂_congr fun pair hpair => by rw [ih ⟨pair, hpair⟩]
  | case11 path x y =>
    rw [equalWithin, equalWithin] <;> assumption
  | _ => rw [equalWithin, equalWithin]

/-- The text of a value depends on no scope and no body. -/
theorem display_withCode (h : store.SameNames other) (value : Value) :
    (store.withCode other).display value = store.display value :=
  render_withCode h [] false value

/-- What a binary operator makes of two values depends on no scope and no body. -/
theorem binary_withCode (h : store.SameNames other) (op : BinaryOp) (left right : Value) :
    (store.withCode other).binary op left right = store.binary op left right := by
  unfold Store.binary
  simp only [display_withCode h, equal, equalWithin_withCode]
  rfl

end Store

namespace Native

/-- A call sees no scope, no body, no depth and no line of input, and leaves them as they are. -/
def Oblivious (call : Machine → Result) : Prop :=
  ∀ m other : Machine, m.store.SameNames other.store →
    call (m.amid other) = ((call m).1, (call m).2.amid other)

/-- A call that first reads an argument is oblivious if it goes on like that. -/
theorem reading_amid {α : Type} {m other : Machine} {argument : Except Cause α}
    {next next' : α → Result}
    (h : ∀ a, next' a = ((next a).1, (next a).2.amid other)) :
    reading (m.amid other) argument next' =
      ((reading m argument next).1, (reading m argument next).2.amid other) := by
  unfold reading
  cases argument with
  | ok a => exact h a
  | error cause => rfl

/-- Showing values is oblivious. -/
theorem print_oblivious (args : List Value) : Oblivious (print args) := by
  intro m other h
  have hd : (m.amid other).store.display = m.store.display :=
    funext (Store.display_withCode h)
  unfold print
  rw [hd]
  rfl

/-- Finding a length is oblivious. -/
theorem len_oblivious (given : Value) : Oblivious (len given) := by
  intro m other _
  have hl : length? (m.amid other).store given = length? m.store given := rfl
  unfold len
  rw [hl]
  cases length? m.store given <;> rfl

/-- Adding an item is oblivious. -/
theorem push_oblivious (given item : Value) : Oblivious (push given item) := by
  intro m other _
  cases given <;> rfl

/-- Removing an item is oblivious. -/
theorem pop_oblivious (given : Value) : Oblivious (pop given) := by
  intro m other _
  cases given <;> rfl

/-- Making a range is oblivious. -/
theorem range_oblivious (start stop step : Float) : Oblivious (range start stop step) := by
  intro m other _
  unfold range
  dsimp only
  split
  · rfl
  · split <;> rfl

/-- The core functions are oblivious, but for the one that takes input. -/
theorem Core.run_oblivious {f : Core} (hf : f ≠ .input) (args : List Value) :
    Oblivious (f.run args) := by
  intro m other h
  have hd : (m.amid other).store.display = m.store.display :=
    funext (Store.display_withCode h)
  unfold Core.run
  -- The cases are those of the function and of the number of its arguments.
  split
  · exact print_oblivious _ m other h
  · exact absurd rfl hf
  · exact absurd rfl hf
  · rfl
  · rw [hd]
  · rfl
  · exact reading_amid fun _ => rfl
  · exact len_oblivious _ m other h
  · exact push_oblivious _ _ m other h
  · exact pop_oblivious _ m other h
  · rfl
  · exact reading_amid fun stop => range_oblivious 0 stop 1 m other h
  · exact reading_amid fun start => reading_amid fun stop =>
      range_oblivious start stop 1 m other h
  · exact reading_amid fun start => reading_amid fun stop => reading_amid fun step =>
      range_oblivious start stop step m other h
  · rfl

/-- Adding rows is oblivious. -/
theorem newRows_amid (cols : Nat) (fill : Value) (count : Nat) (taken : Array Value)
    (m other : Machine) :
    newRows cols fill count taken (m.amid other) =
      ((newRows cols fill count taken m).1, (newRows cols fill count taken m).2.amid other) := by
  induction count generalizing taken m with
  | zero => rfl
  | succ count ih => exact ih _ (m.newArray (Array.replicate cols fill)).2

/-- Making a matrix is oblivious. -/
theorem createMatrix_oblivious (rows cols : Float) (fill : Value) :
    Oblivious (createMatrix rows cols fill) := by
  intro m other _
  unfold createMatrix matrix
  split
  · rfl
  · rw [newRows_amid]
    rfl

/-- The quantum functions are oblivious. -/
theorem Quantum.run_oblivious (f : Quantum) (args : List Value) : Oblivious (f.run args) := by
  intro m other h
  unfold Quantum.run
  split
  iterate 3 exact reading_amid fun _ => reading_amid fun _ => rfl
  · exact reading_amid fun _ => rfl
  · exact reading_amid fun _ => rfl
  · exact reading_amid fun _ => reading_amid fun _ => rfl
  · exact reading_amid fun _ => reading_amid fun _ => reading_amid fun _ => rfl
  · exact reading_amid fun _ => rfl
  · exact reading_amid fun _ => rfl
  · exact reading_amid fun rows => reading_amid fun cols =>
      createMatrix_oblivious rows cols (.number 0) m other h
  · exact reading_amid fun rows => reading_amid fun cols =>
      createMatrix_oblivious rows cols _ m other h
  · rfl

/-- Making a chakra is oblivious. -/
theorem newChakra_oblivious (name level : Option Value) : Oblivious (newChakra name level) := by
  intro m other h
  have hd : (m.amid other).store.display = m.store.display :=
    funext (Store.display_withCode h)
  unfold newChakra
  rw [hd]
  exact reading_amid fun _ => rfl

/-- Giving guidance is oblivious. -/
theorem higherSelfGuide_oblivious : Oblivious higherSelfGuide := by
  intro m other _
  have hdice : (m.amid other).dice = m.dice := rfl
  unfold higherSelfGuide
  rw [hdice]
  obtain ⟨index, dice⟩ := m.dice.pick guidance.length
  rfl

/-- The spiritual functions are oblivious. -/
theorem Spiritual.run_oblivious (f : Spiritual) (args : List Value) : Oblivious (f.run args) := by
  intro m other h
  have hd : (m.amid other).store.display = m.store.display :=
    funext (Store.display_withCode h)
  unfold Spiritual.run
  rw [hd]
  split
  iterate 3 exact newChakra_oblivious _ _ m other h
  iterate 4 exact reading_amid fun _ => reading_amid fun _ => reading_amid fun _ => rfl
  iterate 5 exact reading_amid fun _ => reading_amid fun _ => rfl
  iterate 3 rfl
  · exact reading_amid fun _ => rfl
  iterate 3 rfl
  · exact reading_amid fun _ => rfl
  · exact higherSelfGuide_oblivious m other h
  · rfl

/-- A call is oblivious, or takes a line of input. -/
def Modest (call : Machine → Result) : Prop :=
  Oblivious call ∨ ∃ question, call = input question

/-- The core function that takes input does no more than that. -/
theorem Core.run_input_modest (args : List Value) : Modest (Core.input.run args) := by
  -- With too many arguments it fails and takes nothing.
  match args with
  | [] => exact .inr ⟨none, rfl⟩
  | [question] => exact .inr ⟨some question, rfl⟩
  | _ :: _ :: _ => exact .inl fun _ _ _ => rfl

/-- A function of the library is oblivious, or takes a line of input. -/
theorem run_modest (f : Native) (args : List Value) : Modest (f.run args) := by
  cases f with
  | core f =>
    by_cases hf : f = .input
    · subst hf
      exact Core.run_input_modest args
    · exact .inl (Core.run_oblivious hf args)
  | quantum f => exact .inl (f.run_oblivious args)
  | spiritual f => exact .inl (f.run_oblivious args)

/-- A call of a function of the library is oblivious, or takes a line of input. -/
theorem call_modest (f : Native) (args : List Value) : Modest (f.call args) := by
  unfold call Modest
  split
  · exact f.run_modest args
  · exact .inl fun _ _ _ => rfl

end Native

namespace Method

open Native

/-- The methods of arrays are oblivious. -/
theorem ofArray_oblivious (id : ArrayId) (method : String) (args : List Value) :
    Oblivious (ofArray id method args) := by
  intro m other h
  have he : (m.amid other).store.equal = m.store.equal :=
    funext fun x => funext fun y => Store.equalWithin_withCode [] x y
  unfold ofArray
  rw [he]
  split <;> rfl

/-- The methods of texts are oblivious. -/
theorem ofText_oblivious (s method : String) (args : List Value) :
    Oblivious (ofText s method args) := by
  intro m other h
  unfold ofText
  split <;> rfl

/-- The methods of qubits are oblivious. -/
theorem ofQubit_oblivious (id : ObjectId) (q : Qubit) (method : String) (args : List Value) :
    Oblivious (ofQubit id q method args) := by
  intro m other h
  unfold ofQubit
  split <;> rfl

/-- The methods of chakras are oblivious. -/
theorem ofChakra_oblivious (id : ObjectId) (c : Chakra) (method : String) (args : List Value) :
    Oblivious (ofChakra id c method args) := by
  intro m other h
  unfold ofChakra
  dsimp only
  split
  · exact reading_amid fun _ => rfl
  · exact reading_amid fun _ => rfl
  · rfl
  · rfl

/-- The methods of energies are oblivious. -/
theorem ofEnergy_oblivious (id : ObjectId) (e : Energy) (method : String) (args : List Value) :
    Oblivious (ofEnergy id e method args) := by
  intro m other h
  unfold ofEnergy
  split
  · exact reading_amid fun _ => rfl
  · rfl
  · rfl

/-- A call of a method is oblivious. -/
theorem call_oblivious (object : Value) (method : String) (args : List Value) :
    Oblivious (call object method args) := by
  intro m other h
  cases object with
  | array id => exact ofArray_oblivious id method args m other h
  | text s => exact ofText_oblivious s method args m other h
  | object id =>
    -- Objects are found in the same place, so the method depends on what is found there.
    have ho : (m.amid other).store.object? id = m.store.object? id := rfl
    unfold call
    dsimp only
    rw [ho]
    cases m.store.object? id with
    | none => rfl
    | some o =>
      cases o with
      | qubit q => exact ofQubit_oblivious id q method args m other h
      | chakra c => exact ofChakra_oblivious id c method args m other h
      | energy e => exact ofEnergy_oblivious id e method args m other h
  | _ => rfl

end Method

namespace Native

variable {call : Machine → Result}

/-- An oblivious call leaves the scopes, closures, depth and lines of input as they are. -/
theorem Oblivious.leaves (h : Oblivious call) (m : Machine) : (call m).2 = (call m).2.amid m :=
  congrArg Prod.snd (h m m fun _ => rfl)

/-- A modest call leaves the scopes, closures and depth as they are, and at most takes a line of
input. -/
theorem Modest.leaves (h : Modest call) (m : Machine) :
    (call m).2.store.scopes = m.store.scopes ∧ (call m).2.store.closures = m.store.closures ∧
      (call m).2.depth = m.depth ∧ (call m).2.console.pending <:+ m.console.pending := by
  rcases h with h | ⟨question, rfl⟩
  · rw [h.leaves m]
    exact ⟨rfl, rfl, rfl, List.suffix_refl _⟩
  · refine ⟨rfl, rfl, rfl, ?_⟩
    unfold input Console.readLine
    cases m.console.pending with
    | nil => exact List.suffix_refl _
    | cons line rest => exact List.suffix_cons line rest

end Native

end QuantumScript
