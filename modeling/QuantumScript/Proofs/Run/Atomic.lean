import Mathlib.Data.List.Basic
import QuantumScript.Method
import QuantumScript.Native.Call

/-!
# Library calls that fail

A library function reads all of its arguments before it changes anything, so a call that fails
leaves the machine as it was (`Settles`). The table of arities and the bodies of the functions
agree: with a number of arguments that it takes, a function fails only because one of these
arguments has the wrong type or because a range cannot be made. The same is true of methods, whose
arities are gathered in a table here (`Method.arity?`). Both are put together in
`library_calls_settle`.

One function need neither yield a value nor fail: where a range of too many numbers is refused, a
matrix of too many rows or columns is not, and asking for one crashes the program
(`Native.Overfills`).
-/

namespace QuantumScript

namespace Native

/-! ## Calls that settle -/

/-- A call yields a value, or one of the causes that it may fail for and the machine as it was. -/
def Settles (may : Cause → Prop) (m : Machine) (result : Result) : Prop :=
  result.1 ≠ .crash ∧ ∀ cause, result.1 = .error cause → may cause ∧ result.2 = m

/-- One of some arguments has the wrong type. -/
def Complains (store : Store) (args : List Value) (cause : Cause) : Prop :=
  ∃ given ∈ args, ∃ context expected, cause = .typeMismatch context expected (store.typeName given)

/-- Why a function may fail that takes so many arguments: one has the wrong type, or a range cannot
be made. -/
def Refuses (store : Store) (args : List Value) (cause : Cause) : Prop :=
  Complains store args cause ∨ cause = .zeroStep ∨ cause = .rangeTooLong rangeLimit

/-- No room can be made for a matrix: it has too many rows, or rows with too many items. -/
def TooLarge (rows cols : Float) : Prop :=
  capacity < Number.truncateCount rows ∨
    0 < Number.truncateCount rows ∧ capacity < Number.truncateCount cols

/-- A call of a function asks for a matrix that no room can be made for. -/
def Overfills : Native → List Value → Prop
  | quantum .createMatrix, [.number rows, .number cols] => TooLarge rows cols
  | quantum .createMatrix, [.number rows, .number cols, _] => TooLarge rows cols
  | _, _ => False

variable {may : Cause → Prop} {m m' : Machine} {value given : Value} {args : List Value}
  {store : Store} {cause : Cause} {function : String}

/-- A call that yields a value settles. -/
theorem settles_ok : Settles may m (.ok value, m') :=
  ⟨nofun, nofun⟩

/-- A call that fails and leaves the machine settles. -/
theorem settles_error (h : may cause) : Settles may m (.error cause, m) := by
  refine ⟨nofun, ?_⟩
  rintro _ ⟨⟩
  exact ⟨h, rfl⟩

/-- A call that first reads an argument settles if it goes on like that with what it has read. -/
theorem settles_reading_of_ok {α : Type} {argument : Except Cause α} {next : α → Result}
    (h : ∀ cause, argument = .error cause → may cause)
    (hnext : ∀ a, argument = .ok a → Settles may m (next a)) :
    Settles may m (reading m argument next) := by
  unfold reading
  split
  · exact hnext _ rfl
  · exact settles_error (h _ rfl)

/-- A call that first reads an argument settles if it goes on like that, whatever it has read. -/
theorem settles_reading {α : Type} {argument : Except Cause α} {next : α → Result}
    (h : ∀ cause, argument = .error cause → may cause) (hnext : ∀ a, Settles may m (next a)) :
    Settles may m (reading m argument next) :=
  settles_reading_of_ok h fun a _ => hnext a

/-- A call may fail for more causes. -/
theorem Settles.imp {may' : Cause → Prop} {result : Result} (h : Settles may m result)
    (himp : ∀ cause, may cause → may' cause) : Settles may' m result :=
  ⟨h.1, fun cause hcause => ⟨himp cause (h.2 cause hcause).1, (h.2 cause hcause).2⟩⟩

/-! ## Reading arguments -/

/-- The type of an argument is complained about. -/
theorem complains_typeError {expected : String} (h : given ∈ args) :
    Complains store args (typeError store function expected given) :=
  ⟨given, h, _, _, rfl⟩

/-- A number that cannot be read is complained about. -/
theorem complains_of_numberArg (hmem : given ∈ args)
    (h : numberArg store function given = .error cause) : Complains store args cause := by
  unfold numberArg asNumber at h
  split at h
  · cases h
  · cases h
    exact ⟨_, hmem, _, _, rfl⟩

/-- A number that may be missing is complained about only if it is there. -/
theorem complains_of_maybeNumberArg {argument : Option Value}
    (hmem : ∀ given ∈ argument, given ∈ args)
    (h : maybeNumberArg store function argument = .error cause) : Complains store args cause := by
  unfold maybeNumberArg at h
  split at h
  · cases h
  · cases h
  · rename_i given _
    cases hread : numberArg store function given with
    | ok n =>
      rw [hread] at h
      cases h
    | error cause =>
      rw [hread] at h
      cases h
      exact complains_of_numberArg (hmem given rfl) hread

/-- A number that may be missing is complained about only if it is there, whatever it is then. -/
theorem complains_of_numberArgOr {argument : Option Value} {fallback : Float}
    (hmem : ∀ given ∈ argument, given ∈ args)
    (h : numberArgOr store function fallback argument = .error cause) :
    Complains store args cause := by
  unfold numberArgOr at h
  cases hread : maybeNumberArg store function argument with
  | ok n =>
    rw [hread] at h
    cases h
  | error cause =>
    rw [hread] at h
    cases h
    exact complains_of_maybeNumberArg hmem hread

/-- What is no qubit is complained about. -/
theorem complains_of_qubitArg (hmem : given ∈ args)
    (h : qubitArg store function given = .error cause) : Complains store args cause := by
  unfold qubitArg at h
  split at h
  · split at h <;> cases h
    exact complains_typeError hmem
  · cases h
    exact complains_typeError hmem

/-- What is no chakra is complained about. -/
theorem complains_of_chakraArg (hmem : given ∈ args)
    (h : chakraArg store function given = .error cause) : Complains store args cause := by
  unfold chakraArg at h
  split at h
  · split at h <;> cases h
    exact complains_typeError hmem
  · cases h
    exact complains_typeError hmem

/-- What is no energy is complained about. -/
theorem complains_of_energyArg (hmem : given ∈ args)
    (h : energyArg store function given = .error cause) : Complains store args cause := by
  unfold energyArg at h
  split at h
  · split at h <;> cases h
    exact complains_typeError hmem
  · cases h
    exact complains_typeError hmem

/-! ## The number of arguments -/

/-- A function of one argument has it. -/
theorem exists_one (h : (Arity.exact 1).accepts args.length = true) : ∃ a, args = [a] :=
  List.length_eq_one_iff.1 (of_decide_eq_true h)

/-- A function of two arguments has both. -/
theorem exists_two (h : (Arity.exact 2).accepts args.length = true) : ∃ a b, args = [a, b] :=
  List.length_eq_two.1 (of_decide_eq_true h)

/-- A function of three arguments has them all. -/
theorem exists_three (h : (Arity.exact 3).accepts args.length = true) :
    ∃ a b c, args = [a, b, c] :=
  List.length_eq_three.1 (of_decide_eq_true h)

/-- A function of at most three arguments has none, one, two or three. -/
theorem exists_upToThree {least greatest : Nat} (hle : greatest ≤ 3)
    (h : (Arity.between least greatest).accepts args.length = true) :
    args = [] ∨ (∃ a, args = [a]) ∨ (∃ a b, args = [a, b]) ∨ ∃ a b c, args = [a, b, c] := by
  simp only [Arity.accepts, Bool.and_eq_true, decide_eq_true_eq] at h
  match args with
  | [] => exact .inl rfl
  | [a] => exact .inr (.inl ⟨a, rfl⟩)
  | [a, b] => exact .inr (.inr (.inl ⟨a, b, rfl⟩))
  | [a, b, c] => exact .inr (.inr (.inr ⟨a, b, c, rfl⟩))
  | _ :: _ :: _ :: _ :: _ =>
    simp only [List.length_cons] at h
    omega

/-! ## Functions -/

/-- Making a range settles. -/
theorem range_settles (start stop step : Float) :
    Settles (Refuses store args) m (Native.range start stop step m) := by
  unfold Native.range
  dsimp only
  split
  · exact settles_error (.inr (.inl rfl))
  · split
    · exact settles_error (.inr (.inr rfl))
    · exact settles_ok

/-- A number among the arguments of a function is read, or refused. -/
theorem refuses_of_numberArg (hmem : given ∈ args) :
    ∀ cause, numberArg store function given = .error cause → Refuses store args cause :=
  fun _ h => .inl (complains_of_numberArg hmem h)

/-- A core function settles with a number of arguments that it takes. -/
theorem Core.run_settles {f : Core} (h : f.arity.accepts args.length = true) (m : Machine) :
    Settles (Refuses m.store args) m (f.run args m) := by
  cases f with
  | print => exact settles_ok
  | input =>
    obtain rfl | ⟨_, rfl⟩ | ⟨_, _, rfl⟩ | ⟨_, _, _, rfl⟩ := exists_upToThree (by decide) h
    · exact settles_ok
    · exact settles_ok
    · exact absurd h Bool.false_ne_true
    · exact absurd h Bool.false_ne_true
  | number | string | boolean | type =>
    obtain ⟨_, rfl⟩ := exists_one h
    exact settles_ok
  | math f =>
    obtain ⟨given, rfl⟩ := exists_one h
    exact settles_reading (refuses_of_numberArg (by simp)) fun _ => settles_ok
  | len =>
    obtain ⟨given, rfl⟩ := exists_one h
    show Settles _ _ (Native.len given m)
    unfold Native.len
    split
    · exact settles_ok
    · exact settles_error (.inl (complains_typeError (by simp)))
  | push =>
    obtain ⟨given, item, rfl⟩ := exists_two h
    show Settles _ _ (Native.push given item m)
    unfold Native.push
    split
    · exact settles_ok
    · exact settles_error (.inl (complains_typeError (by simp)))
  | pop =>
    obtain ⟨given, rfl⟩ := exists_one h
    show Settles _ _ (Native.pop given m)
    unfold Native.pop
    split
    · exact settles_ok
    · exact settles_error (.inl (complains_typeError (by simp)))
  | range =>
    obtain rfl | ⟨_, rfl⟩ | ⟨_, _, rfl⟩ | ⟨_, _, _, rfl⟩ := exists_upToThree (by decide) h
    · exact absurd h Bool.false_ne_true
    · exact settles_reading (refuses_of_numberArg (by simp)) fun _ => range_settles _ _ _
    · exact settles_reading (refuses_of_numberArg (by simp)) fun _ =>
        settles_reading (refuses_of_numberArg (by simp)) fun _ => range_settles _ _ _
    · exact settles_reading (refuses_of_numberArg (by simp)) fun _ =>
        settles_reading (refuses_of_numberArg (by simp)) fun _ =>
        settles_reading (refuses_of_numberArg (by simp)) fun _ => range_settles _ _ _

/-- Making a matrix that room can be made for settles. -/
theorem createMatrix_settles {rows cols : Float} (hfits : ¬ TooLarge rows cols) (fill : Value) :
    Settles may m (Native.createMatrix rows cols fill m) := by
  unfold Native.createMatrix matrix
  rw [if_neg (by simpa [TooLarge] using hfits)]
  exact settles_ok

/-- Making a matrix that no room can be made for crashes. -/
theorem createMatrix_eq_crash {rows cols : Float} (h : TooLarge rows cols) (fill : Value) :
    Native.createMatrix rows cols fill m = (.crash, m) := by
  unfold Native.createMatrix matrix
  rw [if_pos (by simpa [TooLarge] using h)]

/-- A number that was read is the argument itself. -/
theorem eq_of_numberArg {x : Float} (h : numberArg store function given = .ok x) :
    given = .number x := by
  cases given <;> cases h
  rfl

/-- Reading the sizes of a matrix and making it settles, if room can be made for it. -/
theorem readingSizes_settles {rows cols fill : Value} (hrows : rows ∈ args) (hcols : cols ∈ args)
    (hfits : ∀ x y, rows = .number x → cols = .number y → ¬ TooLarge x y) :
    Settles (Complains m.store args) m
      (reading m (numberArg m.store function rows) fun x =>
        reading m (numberArg m.store function cols) fun y => Native.createMatrix x y fill m) := by
  refine settles_reading_of_ok (fun _ => complains_of_numberArg hrows) fun x hx => ?_
  refine settles_reading_of_ok (fun _ => complains_of_numberArg hcols) fun y hy => ?_
  exact createMatrix_settles (hfits x y (eq_of_numberArg hx) (eq_of_numberArg hy)) fill

/-- A quantum function settles with a number of arguments that it takes, if it does not ask for a
matrix that no room can be made for. -/
theorem Quantum.run_settles {f : Quantum} (h : f.arity.accepts args.length = true)
    (hfits : ¬ (quantum f).Overfills args) (m : Machine) :
    Settles (Complains m.store args) m (f.run args m) := by
  have hnumber {given : Value} {function : String} (hmem : given ∈ args) :
      ∀ cause, numberArg m.store function given = .error cause → Complains m.store args cause :=
    fun _ => complains_of_numberArg hmem
  have hqubit {given : Value} {function : String} (hmem : given ∈ args) :
      ∀ cause, qubitArg m.store function given = .error cause → Complains m.store args cause :=
    fun _ => complains_of_qubitArg hmem
  have hnew {alpha beta : Option Value} (halpha : ∀ given ∈ alpha, given ∈ args)
      (hbeta : ∀ given ∈ beta, given ∈ args) :
      Settles (Complains m.store args) m (newQubit alpha beta m) :=
    settles_reading (fun _ => complains_of_numberArgOr halpha) fun _ =>
      settles_reading (fun _ => complains_of_numberArgOr hbeta) fun _ => settles_ok
  cases f with
  | qubit =>
    obtain rfl | ⟨_, rfl⟩ | ⟨_, _, rfl⟩ | ⟨_, _, _, rfl⟩ := exists_upToThree (by decide) h
    · exact hnew (by simp) (by simp)
    · exact hnew (by simp) (by simp)
    · exact hnew (by simp) (by simp)
    · exact absurd h Bool.false_ne_true
  | gate g =>
    obtain ⟨_, rfl⟩ := exists_one h
    exact settles_reading (hqubit (by simp)) fun _ => settles_ok
  | measure | probZero | probOne =>
    obtain ⟨_, rfl⟩ := exists_one h
    exact settles_reading (hqubit (by simp)) fun _ => settles_ok
  | entangle =>
    obtain ⟨_, _, rfl⟩ := exists_two h
    exact settles_reading (hqubit (by simp)) fun _ =>
      settles_reading (hqubit (by simp)) fun _ => settles_ok
  | superpose =>
    obtain ⟨_, _, _, rfl⟩ := exists_three h
    exact settles_reading (hqubit (by simp)) fun _ =>
      settles_reading (hnumber (by simp)) fun _ =>
      settles_reading (hnumber (by simp)) fun _ => settles_ok
  | createMatrix =>
    obtain rfl | ⟨_, rfl⟩ | ⟨_, _, rfl⟩ | ⟨_, _, _, rfl⟩ := exists_upToThree (by decide) h
    · exact absurd h Bool.false_ne_true
    · exact absurd h Bool.false_ne_true
    · refine readingSizes_settles (by simp) (by simp) ?_
      rintro x y rfl rfl
      exact hfits
    · refine readingSizes_settles (by simp) (by simp) ?_
      rintro x y rfl rfl
      exact hfits

/-- A spiritual function settles with a number of arguments that it takes. -/
theorem Spiritual.run_settles {f : Spiritual} (h : f.arity.accepts args.length = true)
    (m : Machine) : Settles (Complains m.store args) m (f.run args m) := by
  have hnumber {given : Value} {function : String} (hmem : given ∈ args) :
      ∀ cause, numberArg m.store function given = .error cause → Complains m.store args cause :=
    fun _ => complains_of_numberArg hmem
  have hmaybe {argument : Option Value} {function : String} {fallback : Float}
      (hmem : ∀ given ∈ argument, given ∈ args) :
      ∀ cause, numberArgOr m.store function fallback argument = .error cause →
        Complains m.store args cause :=
    fun _ => complains_of_numberArgOr hmem
  have henergy {given : Value} {function : String} (hmem : given ∈ args) :
      ∀ cause, energyArg m.store function given = .error cause → Complains m.store args cause :=
    fun _ => complains_of_energyArg hmem
  have hchakra {name level : Option Value} (hlevel : ∀ given ∈ level, given ∈ args) :
      Settles (Complains m.store args) m (newChakra name level m) :=
    settles_reading (hmaybe hlevel) fun _ => settles_ok
  have hbalance {given : Value} {shift : Option Value} (hgiven : given ∈ args)
      (hshift : ∀ given ∈ shift, given ∈ args) :
      Settles (Complains m.store args) m (Native.balanceChakra given shift m) :=
    settles_reading (fun _ => complains_of_chakraArg hgiven) fun _ =>
      settles_reading (fun _ => complains_of_maybeNumberArg hshift) fun _ => settles_ok
  have hnew {amount frequency vibration : Option Value} (hamount : ∀ given ∈ amount, given ∈ args)
      (hfrequency : ∀ given ∈ frequency, given ∈ args)
      (hvibration : ∀ given ∈ vibration, given ∈ args) :
      Settles (Complains m.store args) m (newEnergy amount frequency vibration m) :=
    settles_reading (hmaybe hamount) fun _ => settles_reading (hmaybe hfrequency) fun _ =>
      settles_reading (hmaybe hvibration) fun _ => settles_ok
  cases f with
  | chakra =>
    obtain rfl | ⟨_, rfl⟩ | ⟨_, _, rfl⟩ | ⟨_, _, _, rfl⟩ := exists_upToThree (by decide) h
    · exact hchakra (by simp)
    · exact hchakra (by simp)
    · exact hchakra (by simp)
    · exact absurd h Bool.false_ne_true
  | energy =>
    obtain rfl | ⟨_, rfl⟩ | ⟨_, _, rfl⟩ | ⟨_, _, _, rfl⟩ := exists_upToThree (by decide) h
    · exact hnew (by simp) (by simp) (by simp)
    · exact hnew (by simp) (by simp) (by simp)
    · exact hnew (by simp) (by simp) (by simp)
    · exact hnew (by simp) (by simp) (by simp)
  | balanceChakra =>
    obtain rfl | ⟨_, rfl⟩ | ⟨_, _, rfl⟩ | ⟨_, _, _, rfl⟩ := exists_upToThree (by decide) h
    · exact absurd h Bool.false_ne_true
    · exact hbalance (by simp) (by simp)
    · exact hbalance (by simp) (by simp)
    · exact absurd h Bool.false_ne_true
  | chargeEnergy | setFrequency | setVibration =>
    obtain ⟨_, _, rfl⟩ := exists_two h
    exact settles_reading (henergy (by simp)) fun _ =>
      settles_reading (hnumber (by simp)) fun _ => settles_ok
  | karma | dharma =>
    obtain ⟨_, _, rfl⟩ := exists_two h
    exact settles_ok
  | manifest | invokeElement | higherSelfGuide =>
    obtain ⟨_, rfl⟩ := exists_one h
    exact settles_ok
  | meditate =>
    obtain ⟨_, rfl⟩ := exists_one h
    exact settles_reading (hmaybe (by simp)) fun _ => settles_ok
  | fibonacci =>
    obtain ⟨_, rfl⟩ := exists_one h
    exact settles_reading (hnumber (by simp)) fun _ => settles_ok
  | alignChakras | goldenRatio =>
    obtain rfl : args = [] := List.length_eq_zero_iff.1 (of_decide_eq_true h)
    exact settles_ok

/-- A function of the library settles with a number of arguments that it takes, if it does not ask
for a matrix that no room can be made for. -/
theorem run_settles {f : Native} (h : f.arity.accepts args.length = true)
    (hfits : ¬ f.Overfills args) (m : Machine) :
    Settles (Refuses m.store args) m (f.run args m) := by
  cases f with
  | core f => exact Core.run_settles h m
  | quantum f => exact (Quantum.run_settles h hfits m).imp fun _ => .inl
  | spiritual f => exact (Spiritual.run_settles h m).imp fun _ => .inl

/-- A call that asks for a matrix that no room can be made for crashes. -/
theorem call_eq_crash {f : Native} (h : f.Overfills args) (m : Machine) :
    f.call args m = (.crash, m) := by
  unfold Overfills at h
  split at h
  · exact createMatrix_eq_crash h _
  · exact createMatrix_eq_crash h _
  · exact h.elim

/-- A call with a number of arguments that the function does not take is refused. -/
theorem call_eq_wrongArity {f : Native} (h : f.arity.accepts args.length = false) (m : Machine) :
    f.call args m = (.error (wrongArity f.name f.arity args), m) := by
  rw [call, h]
  rfl

/-- A call that fails leaves the machine as it was. With a number of arguments that the function
takes, one of them has the wrong type, or a range cannot be made. -/
theorem call_failed {f : Native} (h : (f.call args m).1 = .error cause) :
    (f.arity.accepts args.length = true → Refuses m.store args cause) ∧ (f.call args m).2 = m := by
  by_cases hfits : f.Overfills args
  · rw [call_eq_crash hfits] at h
    cases h
  · cases haccepts : f.arity.accepts args.length with
    | false => exact ⟨nofun, by rw [call_eq_wrongArity haccepts]⟩
    | true =>
      have hcall : f.call args m = f.run args m := by rw [call, if_pos haccepts]
      rw [hcall] at h ⊢
      obtain ⟨hmay, hleft⟩ := (run_settles haccepts hfits m).2 cause h
      exact ⟨fun _ => hmay, hleft⟩

/-- A call fails for the number of its arguments, or because one of them has the wrong type or a
range cannot be made. -/
theorem cause_of_call {f : Native} (h : (f.call args m).1 = .error cause) :
    cause = wrongArity f.name f.arity args ∨ Refuses m.store args cause := by
  cases haccepts : f.arity.accepts args.length with
  | false =>
    rw [call_eq_wrongArity haccepts] at h
    cases h
    exact .inl rfl
  | true => exact .inr ((call_failed h).1 haccepts)

/-- A call crashes exactly if it asks for a matrix that no room can be made for. -/
theorem call_crashes_iff (f : Native) (args : List Value) (m : Machine) :
    (f.call args m).1 = .crash ↔ f.Overfills args := by
  refine ⟨fun h => ?_, fun h => by rw [call_eq_crash h]⟩
  by_contra hfits
  cases haccepts : f.arity.accepts args.length with
  | false =>
    rw [call_eq_wrongArity haccepts] at h
    cases h
  | true =>
    rw [call, if_pos haccepts] at h
    exact (run_settles haccepts hfits m).1 h

end Native

/-! ## Methods -/

namespace Method

open Native

/-- The arguments that a method of an array takes. -/
def arrayArity? : String → Option Arity
  | "push" | "contains" => some (.exact 1)
  | "pop" => some (.exact 0)
  | _ => none

/-- The arguments that a method of a text takes. -/
def textArity? : String → Option Arity
  | "upper" | "lower" => some (.exact 0)
  | _ => none

/-- The arguments that a method of an object takes. -/
def objectArity? : Object → String → Option Arity
  | .qubit _, "measure" | .qubit _, "hadamard" => some (.exact 0)
  | .chakra _, "balance" => some (.between 0 1)
  | .energy _, "charge" => some (.exact 1)
  | _, _ => none

/-- The arguments that a method of a value takes, if the value has that method. -/
def arity? (store : Store) (object : Value) (method : String) : Option Arity :=
  match object with
  | .array _ => arrayArity? method
  | .text _ => textArity? method
  | .object id => (store.object? id).bind fun o => objectArity? o method
  | _ => none

/-- What comes of calling a method of a value that takes certain arguments, if it has it: too few or
too many are refused, and else the call settles. -/
def Answers (arity : Option Arity) (object : Value) (method : String) (args : List Value)
    (m : Machine) (result : Result) : Prop :=
  match arity with
  | none => result = (.error (m.store.undefinedMember object method), m)
  | some arity =>
    if arity.accepts args.length then Settles (Complains m.store args) m result
    else result = (.error (wrongArity method arity args), m)

variable {object : Value} {method : String} {args : List Value} {m : Machine} {result : Result}
  {arity : Arity}

/-- A call with a number of arguments that fits settles. -/
theorem answers_accepted (h : arity.accepts args.length = true)
    (hsettles : Settles (Complains m.store args) m result) :
    Answers (some arity) object method args m result := by
  rw [Answers, if_pos h]
  exact hsettles

/-- A call with a number of arguments that does not fit is refused. -/
theorem answers_refused (h : arity.accepts args.length = false) :
    Answers (some arity) object method args m (.error (wrongArity method arity args), m) := by
  rw [Answers, if_neg (by simp [h])]

/-- Without an argument, or with more than one, there is not one. -/
theorem accepts_one_eq_false (h : ∀ a, args = [a] → False) :
    (Arity.exact 1).accepts args.length = false := by
  rw [Bool.eq_false_iff]
  intro haccepts
  obtain ⟨a, ha⟩ := exists_one haccepts
  exact h a ha

/-- With an argument there is not none. -/
theorem accepts_zero_eq_false (h : args = [] → False) :
    (Arity.exact 0).accepts args.length = false := by
  rw [Bool.eq_false_iff]
  intro haccepts
  exact h (List.length_eq_zero_iff.1 (of_decide_eq_true haccepts))

/-- A method that a value does not have is refused. -/
theorem answers_none {arity : Option Arity} (h : arity = none) :
    Answers arity object method args m (.error (m.store.undefinedMember object method), m) := by
  rw [h]
  rfl

/-- The methods of arrays. -/
theorem ofArray_answers (id : ArrayId) (method : String) (args : List Value) (m : Machine) :
    Answers (arrayArity? method) (.array id) method args m (ofArray id method args m) := by
  unfold ofArray
  split
  · exact answers_accepted rfl settles_ok
  · exact answers_refused (accepts_one_eq_false ‹_›)
  · exact answers_accepted rfl settles_ok
  · exact answers_refused (accepts_zero_eq_false ‹_›)
  · exact answers_accepted rfl settles_ok
  · exact answers_refused (accepts_one_eq_false ‹_›)
  · refine answers_none ?_
    unfold arrayArity?
    split <;> first | rfl | contradiction

/-- The methods of texts. -/
theorem ofText_answers (s method : String) (args : List Value) (m : Machine) :
    Answers (textArity? method) (.text s) method args m (ofText s method args m) := by
  unfold ofText
  split
  · exact answers_accepted rfl settles_ok
  · exact answers_accepted rfl settles_ok
  · exact answers_refused (accepts_zero_eq_false ‹_›)
  · exact answers_refused (accepts_zero_eq_false ‹_›)
  · refine answers_none ?_
    unfold textArity?
    split <;> first | rfl | contradiction

/-- The methods of qubits. -/
theorem ofQubit_answers (id : ObjectId) (q : Qubit) (method : String) (args : List Value)
    (m : Machine) :
    Answers (objectArity? (.qubit q) method) (.object id) method args m
      (ofQubit id q method args m) := by
  unfold ofQubit
  split
  · exact answers_accepted rfl settles_ok
  · exact answers_accepted rfl settles_ok
  · exact answers_refused (accepts_zero_eq_false ‹_›)
  · exact answers_refused (accepts_zero_eq_false ‹_›)
  · refine answers_none ?_
    unfold objectArity?
    split <;> first | rfl | contradiction

/-- The methods of chakras. -/
theorem ofChakra_answers (id : ObjectId) (c : Chakra) (method : String) (args : List Value)
    (m : Machine) :
    Answers (objectArity? (.chakra c) method) (.object id) method args m
      (ofChakra id c method args m) := by
  have hbalance {args : List Value} {shift : Option Value} (h : ∀ given ∈ shift, given ∈ args) :
      Settles (Complains m.store args) m
        (reading m (maybeNumberArg m.store "balance" shift) fun shift =>
          replaceChakra id (c.balanced shift) m) :=
    settles_reading (fun _ => complains_of_maybeNumberArg h) fun _ => settles_ok
  unfold ofChakra
  dsimp only
  split
  · exact answers_accepted rfl (hbalance (by simp))
  · exact answers_accepted rfl (hbalance (by simp))
  · rename_i hzero hone
    refine answers_refused (Bool.eq_false_iff.2 fun haccepts => ?_)
    obtain rfl | ⟨a, rfl⟩ | ⟨_, _, rfl⟩ | ⟨_, _, _, rfl⟩ := exists_upToThree (by decide) haccepts
    · exact hzero rfl
    · exact hone a rfl
    · exact Bool.false_ne_true haccepts
    · exact Bool.false_ne_true haccepts
  · refine answers_none ?_
    unfold objectArity?
    split <;> first | rfl | contradiction

/-- The methods of energies. -/
theorem ofEnergy_answers (id : ObjectId) (e : Energy) (method : String) (args : List Value)
    (m : Machine) :
    Answers (objectArity? (.energy e) method) (.object id) method args m
      (ofEnergy id e method args m) := by
  unfold ofEnergy
  split
  · exact answers_accepted rfl (settles_reading
      (fun _ => complains_of_numberArg List.mem_cons_self) fun _ => settles_ok)
  · exact answers_refused (accepts_one_eq_false ‹_›)
  · refine answers_none ?_
    unfold objectArity?
    split <;> first | rfl | contradiction

/-- A method of a value answers as its arity says. -/
theorem call_answers (object : Value) (method : String) (args : List Value) (m : Machine) :
    Answers (arity? m.store object method) object method args m (call object method args m) := by
  cases object with
  | array id => exact ofArray_answers id method args m
  | text s => exact ofText_answers s method args m
  | object id =>
    unfold call arity?
    dsimp only
    cases m.store.object? id with
    | none => exact answers_none rfl
    | some o =>
      cases o with
      | qubit q => exact ofQubit_answers id q method args m
      | chakra c => exact ofChakra_answers id c method args m
      | energy e => exact ofEnergy_answers id e method args m
  | _ => exact answers_none rfl

/-- A call of a method does not crash. -/
theorem call_ne_crash (object : Value) (method : String) (args : List Value) (m : Machine) :
    (call object method args m).1 ≠ .crash := by
  have hanswers := call_answers object method args m
  unfold Answers at hanswers
  split at hanswers
  · rw [hanswers]
    nofun
  · split at hanswers
    · exact hanswers.1
    · rw [hanswers]
      nofun

/-- A method of a value fails because the value does not have it, for the number of its arguments,
or because one of them has the wrong type. -/
theorem cause_of_call {cause : Cause} (h : (call object method args m).1 = .error cause) :
    cause = m.store.undefinedMember object method ∨
      (∃ arity, cause = wrongArity method arity args) ∨ Complains m.store args cause := by
  have hanswers := call_answers object method args m
  unfold Answers at hanswers
  split at hanswers
  · rw [hanswers] at h
    cases h
    exact .inl rfl
  · split at hanswers
    · exact .inr (.inr (hanswers.2 cause h).1)
    · rw [hanswers] at h
      cases h
      exact .inr (.inl ⟨_, rfl⟩)

end Method

/-- A machine with one qubit and a line of input. -/
def qubitMachine : Machine where
  store := (Store.initial.newObject (.qubit ⟨1, 0⟩)).2
  console := ⟨#[], ["yes"]⟩
  dice := .zeros
  depth := 0

end QuantumScript
