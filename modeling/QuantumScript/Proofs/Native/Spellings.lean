import QuantumScript.Proofs.Run.Atomic

/-!
# Functions that are also methods

Six functions of the library can also be called as a method of their first argument. `Spelling`
says what ties such a function to its method: the table of arities counts the receiver as one more
argument, a value without the method is refused by the function too, and on a value that has it the
two do the same. Both spellings then agree in every call (`Spelling.agree`), whatever the receiver
and the arguments are. `spellings_agree` is that for all six, with the length of a text or an array,
which is a function and a member.
-/

namespace QuantumScript.Native

/-- Two calls agree: they yield the same value and leave the same machine, or both fail and leave
the machine as it was. -/
inductive Agree (m : Machine) : Result → Result → Prop
  /-- Both yield a value. -/
  | done (value : Value) (m' : Machine) : Agree m (.ok value, m') (.ok value, m')
  /-- Both fail. -/
  | failed (cause cause' : Cause) : Agree m (.error cause, m) (.error cause', m)

/-- A call fails and leaves the machine as it was. -/
def Fails (m : Machine) (result : Result) : Prop :=
  ∃ cause, result = (.error cause, m)

/-- What ties a function to a method that takes the same arguments but the receiver. -/
structure Spelling (f : Native) (method : String) (arity : Arity) : Prop where
  /-- The function counts the receiver. -/
  accepts : ∀ n, f.arity.accepts (n + 1) = arity.accepts n
  /-- A value lacks the method, and the function refuses it, or it has the method, which does what
  the function does. -/
  receiver : ∀ (m : Machine) (r : Value),
    (Method.arity? m.store r method = none ∧
      ∀ args, arity.accepts args.length = true → Fails m (f.run (r :: args) m)) ∨
    (Method.arity? m.store r method = some arity ∧
      ∀ args, arity.accepts args.length = true →
        Agree m (f.run (r :: args) m) (Method.call r method args m))

variable {m : Machine} {r : Value} {args : List Value} {store : Store} {id : ObjectId}

/-! ## Calls that agree -/

/-- Two calls that fail agree. -/
theorem Fails.agree {result result' : Result} (hone : Fails m result) (hother : Fails m result') :
    Agree m result result' := by
  obtain ⟨cause, rfl⟩ := hone
  obtain ⟨cause', rfl⟩ := hother
  exact .failed cause cause'

/-- What agrees with a call that yields a value yields it too. -/
theorem Agree.eq_ok {value : Value} {m' : Machine} {result : Result}
    (h : Agree m (.ok value, m') result) : result = (.ok value, m') := by
  cases h
  rfl

/-- A call fails that reads an argument it cannot read. -/
theorem fails_reading {α : Type} {argument : Except Cause α} {next : α → Result}
    (h : ∃ cause, argument = .error cause) : Fails m (reading m argument next) := by
  obtain ⟨cause, rfl⟩ := h
  exact ⟨cause, rfl⟩

/-- Two calls that read the same, apart from how they complain, and then agree. -/
theorem agree_reading {α : Type} {argument argument' : Except Cause α} {next : α → Result}
    (hsame : argument.toOption = argument'.toOption) (h : ∀ a, Agree m (next a) (next a)) :
    Agree m (reading m argument next) (reading m argument' next) := by
  cases argument with
  | ok a =>
    cases argument' with
    | ok a' =>
      obtain rfl : a = a' := Option.some.inj hsame
      exact h a
    | error cause => cases hsame
  | error cause =>
    cases argument' with
    | ok a' => cases hsame
    | error cause' => exact .failed cause cause'

/-- Whether a value is read as a number does not depend on who reads it. -/
theorem toOption_numberArg (store : Store) (function function' : String) (given : Value) :
    (numberArg store function given).toOption = (numberArg store function' given).toOption := by
  cases given <;> rfl

/-- Whether a value that may be missing is read as a number does not depend on who reads it. -/
theorem toOption_maybeNumberArg (store : Store) (function function' : String)
    (given : Option Value) :
    (maybeNumberArg store function given).toOption =
      (maybeNumberArg store function' given).toOption := by
  cases given with
  | none => rfl
  | some given => cases given <;> rfl

/-- A function called with a number of arguments that it does not take. -/
theorem fails_of_arity {f : Native} (h : f.arity.accepts args.length = false) :
    Fails m (f.call args m) :=
  ⟨wrongArity f.name f.arity args, by rw [call, h]; rfl⟩

/-- A function and a method that are tied agree in every call. -/
theorem Spelling.agree {f : Native} {method : String} {arity : Arity}
    (hspelling : Spelling f method arity) (r : Value) (args : List Value) (m : Machine) :
    Agree m (f.call (r :: args) m) (Method.call r method args m) := by
  have hanswers := Method.call_answers r method args m
  have hcounts : f.arity.accepts (r :: args).length = arity.accepts args.length :=
    hspelling.accepts args.length
  cases hfits : arity.accepts args.length with
  | false =>
    refine (fails_of_arity (hcounts.trans hfits)).agree ?_
    obtain ⟨hlacks, -⟩ | ⟨hhas, -⟩ := hspelling.receiver m r
    · rw [hlacks] at hanswers
      exact ⟨_, hanswers⟩
    · rw [hhas, Method.Answers, hfits] at hanswers
      exact ⟨_, hanswers⟩
  | true =>
    rw [call, if_pos (hcounts.trans hfits)]
    obtain ⟨hlacks, hrefused⟩ | ⟨-, hsame⟩ := hspelling.receiver m r
    · rw [hlacks] at hanswers
      exact (hrefused args hfits).agree ⟨_, hanswers⟩
    · exact hsame args hfits

/-! ## Receivers -/

/-- What is no array is not taken for one and has no method of arrays. -/
theorem array_or_lacks (m : Machine) (r : Value) :
    (∃ id, r = .array id) ∨
      ((∀ item, Fails m (Native.push r item m)) ∧ Fails m (Native.pop r m) ∧
        Method.arity? m.store r "push" = none ∧ Method.arity? m.store r "pop" = none) := by
  cases r with
  | array id => exact .inl ⟨id, rfl⟩
  | object id =>
    rcases hfound : m.store.object? id with _ | (q | c | e)
    all_goals simp [Fails, Native.push, Native.pop, Method.arity?, Method.objectArity?, hfound]
  | _ => exact .inr ⟨fun _ => ⟨_, rfl⟩, ⟨_, rfl⟩, rfl, rfl⟩

/-- What is no qubit is not taken for one and has no method of qubits. -/
theorem qubit_or_lacks (store : Store) (r : Value) :
    (∃ id q, r = .object id ∧ store.object? id = some (.qubit q)) ∨
      ((∀ function, ∃ cause, qubitArg store function r = .error cause) ∧
        Method.arity? store r "hadamard" = none ∧ Method.arity? store r "measure" = none) := by
  cases r with
  | object id =>
    rcases hfound : store.object? id with _ | (q | c | e)
    case some.qubit => exact .inl ⟨id, q, rfl, hfound⟩
    all_goals simp [qubitArg, Method.arity?, Method.objectArity?, hfound]
  | _ => exact .inr ⟨fun _ => ⟨_, rfl⟩, rfl, rfl⟩

/-- What is no chakra is not taken for one and has no method of chakras. -/
theorem chakra_or_lacks (store : Store) (r : Value) :
    (∃ id c, r = .object id ∧ store.object? id = some (.chakra c)) ∨
      ((∀ function, ∃ cause, chakraArg store function r = .error cause) ∧
        Method.arity? store r "balance" = none) := by
  cases r with
  | object id =>
    rcases hfound : store.object? id with _ | (q | c | e)
    case some.chakra => exact .inl ⟨id, c, rfl, hfound⟩
    all_goals simp [chakraArg, Method.arity?, Method.objectArity?, hfound]
  | _ => exact .inr ⟨fun _ => ⟨_, rfl⟩, rfl⟩

/-- What is no energy is not taken for one and has no method of energies. -/
theorem energy_or_lacks (store : Store) (r : Value) :
    (∃ id e, r = .object id ∧ store.object? id = some (.energy e)) ∨
      ((∀ function, ∃ cause, energyArg store function r = .error cause) ∧
        Method.arity? store r "charge" = none) := by
  cases r with
  | object id =>
    rcases hfound : store.object? id with _ | (q | c | e)
    case some.energy => exact .inl ⟨id, e, rfl, hfound⟩
    all_goals simp [energyArg, Method.arity?, Method.objectArity?, hfound]
  | _ => exact .inr ⟨fun _ => ⟨_, rfl⟩, rfl⟩

/-! ## The six functions -/

/-- A method without arguments is given none. -/
theorem eq_nil_of_accepts (hfits : (Arity.exact 0).accepts args.length = true) : args = [] :=
  List.length_eq_zero_iff.1 (of_decide_eq_true hfits)

/-- Adding an item to an array is a function and a method. -/
theorem push_spelling : Spelling (core .push) "push" (.exact 1) where
  accepts n := by simp [Native.arity, Core.arity, Arity.accepts]
  receiver m r := by
    obtain ⟨id, rfl⟩ | ⟨hrefused, -, hlacks, -⟩ := array_or_lacks m r
    · refine .inr ⟨rfl, fun args hfits => ?_⟩
      obtain ⟨item, rfl⟩ := exists_one hfits
      exact .done _ _
    · refine .inl ⟨hlacks, fun args hfits => ?_⟩
      obtain ⟨item, rfl⟩ := exists_one hfits
      exact hrefused item

/-- Removing the last item of an array is a function and a method. -/
theorem pop_spelling : Spelling (core .pop) "pop" (.exact 0) where
  accepts n := by simp [Native.arity, Core.arity, Arity.accepts]
  receiver m r := by
    obtain ⟨id, rfl⟩ | ⟨-, hrefused, -, hlacks⟩ := array_or_lacks m r
    · refine .inr ⟨rfl, fun args hfits => ?_⟩
      obtain rfl := eq_nil_of_accepts hfits
      exact .done _ _
    · refine .inl ⟨hlacks, fun args hfits => ?_⟩
      obtain rfl := eq_nil_of_accepts hfits
      exact hrefused

/-- The Hadamard gate of a qubit is a function and a method. -/
theorem hadamard_spelling : Spelling (quantum (.gate .hadamard)) "hadamard" (.exact 0) where
  accepts n := by simp [Native.arity, Quantum.arity, Arity.accepts]
  receiver m r := by
    obtain ⟨id, q, rfl, hfound⟩ | ⟨hrefused, hlacks, -⟩ := qubit_or_lacks m.store r
    · refine .inr ⟨by simp [Method.arity?, Method.objectArity?, hfound], fun args hfits => ?_⟩
      obtain rfl := eq_nil_of_accepts hfits
      have hfunction : (quantum (.gate .hadamard)).run [.object id] m =
          replaceQubit id q.hadamard m := by
        simp [run, Quantum.run, qubitArg, reading, hfound, Qubit.through]
      have hmethod : Method.call (.object id) "hadamard" [] m = replaceQubit id q.hadamard m := by
        simp [Method.call, Method.ofQubit, hfound]
      rw [hfunction, hmethod]
      exact .done _ _
    · refine .inl ⟨hlacks, fun args hfits => ?_⟩
      obtain rfl := eq_nil_of_accepts hfits
      exact fails_reading (hrefused _)

/-- Measuring a qubit is a function and a method. -/
theorem measure_spelling : Spelling (quantum .measure) "measure" (.exact 0) where
  accepts n := by simp [Native.arity, Quantum.arity, Arity.accepts]
  receiver m r := by
    obtain ⟨id, q, rfl, hfound⟩ | ⟨hrefused, -, hlacks⟩ := qubit_or_lacks m.store r
    · refine .inr ⟨by simp [Method.arity?, Method.objectArity?, hfound], fun args hfits => ?_⟩
      obtain rfl := eq_nil_of_accepts hfits
      have hfunction : (quantum .measure).run [.object id] m = measureQubit id q m := by
        simp [run, Quantum.run, qubitArg, reading, hfound]
      have hmethod : Method.call (.object id) "measure" [] m = measureQubit id q m := by
        simp [Method.call, Method.ofQubit, hfound]
      rw [hfunction, hmethod]
      exact .done _ _
    · refine .inl ⟨hlacks, fun args hfits => ?_⟩
      obtain rfl := eq_nil_of_accepts hfits
      exact fails_reading (hrefused _)

/-- Balancing a chakra by a shift that may be missing, in both spellings. -/
theorem agree_balance {c : Chakra} (hfound : m.store.object? id = some (.chakra c))
    (shift : Option Value) :
    Agree m (balanceChakra (.object id) shift m)
      (reading m (maybeNumberArg m.store "balance" shift) fun shift =>
        replaceChakra id (c.balanced shift) m) := by
  have hreceiver : chakraArg m.store "balance_chakra" (.object id) = .ok (id, c) := by
    simp [chakraArg, hfound]
  rw [balanceChakra, hreceiver]
  exact agree_reading (toOption_maybeNumberArg ..) fun _ => .done _ _

/-- Balancing a chakra is a function and a method. -/
theorem balance_spelling : Spelling (spiritual .balanceChakra) "balance" (.between 0 1) where
  accepts n := by simp [Native.arity, Spiritual.arity, Arity.accepts]
  receiver m r := by
    obtain ⟨id, c, rfl, hfound⟩ | ⟨hrefused, hlacks⟩ := chakra_or_lacks m.store r
    · refine .inr ⟨by simp [Method.arity?, Method.objectArity?, hfound], fun args hfits => ?_⟩
      have hmethod : Method.call (.object id) "balance" args m =
          Method.ofChakra id c "balance" args m := by
        simp [Method.call, hfound]
      rw [hmethod]
      obtain rfl | ⟨shift, rfl⟩ | ⟨_, _, rfl⟩ | ⟨_, _, _, rfl⟩ := exists_upToThree (by decide) hfits
      · exact agree_balance hfound none
      · exact agree_balance hfound (some shift)
      · exact absurd hfits Bool.false_ne_true
      · exact absurd hfits Bool.false_ne_true
    · refine .inl ⟨hlacks, fun args hfits => ?_⟩
      obtain rfl | ⟨shift, rfl⟩ | ⟨_, _, rfl⟩ | ⟨_, _, _, rfl⟩ := exists_upToThree (by decide) hfits
      · exact fails_reading (hrefused _)
      · exact fails_reading (hrefused _)
      · exact absurd hfits Bool.false_ne_true
      · exact absurd hfits Bool.false_ne_true

/-- Charging an energy is a function and a method. -/
theorem charge_spelling : Spelling (spiritual .chargeEnergy) "charge" (.exact 1) where
  accepts n := by simp [Native.arity, Spiritual.arity, Arity.accepts]
  receiver m r := by
    obtain ⟨id, e, rfl, hfound⟩ | ⟨hrefused, hlacks⟩ := energy_or_lacks m.store r
    · refine .inr ⟨by simp [Method.arity?, Method.objectArity?, hfound], fun args hfits => ?_⟩
      obtain ⟨amount, rfl⟩ := exists_one hfits
      have hfunction : (spiritual .chargeEnergy).run [.object id, amount] m =
          reading m (numberArg m.store "charge_energy" amount) fun amount =>
            replaceEnergy id (e.charged amount) m := by
        simp [run, Spiritual.run, energyArg, hfound, reading]
      have hmethod : Method.call (.object id) "charge" [amount] m =
          reading m (numberArg m.store "charge" amount) fun amount =>
            replaceEnergy id (e.charged amount) m := by
        simp [Method.call, Method.ofEnergy, hfound]
      rw [hfunction, hmethod]
      exact agree_reading (toOption_numberArg ..) fun _ => .done _ _
    · refine .inl ⟨hlacks, fun args hfits => ?_⟩
      obtain ⟨amount, rfl⟩ := exists_one hfits
      exact fails_reading (hrefused _)

/-! ## Lengths -/

/-- Whether a value has a length, and which, is the same for the function and for the member. -/
theorem length_agrees (r : Value) (m : Machine) :
    (∃ n : Float, (core .len).call [r] m = (.ok (.number n), m) ∧
      m.store.member r "length" = .ok (.number n)) ∨
    (Fails m ((core .len).call [r] m) ∧ ∃ cause, m.store.member r "length" = .error cause) := by
  cases r with
  | array id => exact .inl ⟨_, rfl, rfl⟩
  | text s => exact .inl ⟨_, rfl, rfl⟩
  | object id =>
    refine .inr ⟨⟨_, rfl⟩, ?_⟩
    have hmissing : (m.store.object? id).bind (fun o => o.member? "length") = none := by
      rcases m.store.object? id with _ | (_ | _ | _) <;> rfl
    simp [Store.member, hmissing]
  | _ => exact .inr ⟨⟨_, rfl⟩, _, rfl⟩

/-! ## All spellings -/

/-- A function and its method agree in every call: they succeed together, with the same value and
the same machine after it, and if they fail the machine is as it was. So do the function and the
member that give a length. -/
theorem spellings_agree :
    (∀ pair ∈ [("push", "push"), ("pop", "pop"), ("hadamard", "hadamard"), ("measure", "measure"),
        ("balance_chakra", "balance"), ("charge_energy", "charge")],
      ∃ f, ofName? pair.1 = some f ∧ ∀ (r : Value) (args : List Value) (m : Machine),
        Agree m (f.call (r :: args) m) (Method.call r pair.2 args m)) ∧
    ∃ f, ofName? "len" = some f ∧ ∀ (r : Value) (m : Machine),
      (∃ n : Float, f.call [r] m = (.ok (.number n), m) ∧
        m.store.member r "length" = .ok (.number n)) ∨
      (Fails m (f.call [r] m) ∧ ∃ cause, m.store.member r "length" = .error cause) := by
  refine ⟨?_, core .len, by decide, length_agrees⟩
  simp only [List.forall_mem_cons, List.not_mem_nil, false_implies, implies_true, and_true]
  exact ⟨⟨_, by decide, push_spelling.agree⟩, ⟨_, by decide, pop_spelling.agree⟩,
    ⟨_, by decide, hadamard_spelling.agree⟩, ⟨_, by decide, measure_spelling.agree⟩,
    ⟨_, by decide, balance_spelling.agree⟩, ⟨_, by decide, charge_spelling.agree⟩⟩

/-- A qubit measured as an argument and as a receiver, with the same draw. -/
theorem spellings_agree_measure :
    ("measure", "measure") ∈ [("push", "push"), ("pop", "pop"), ("hadamard", "hadamard"),
      ("measure", "measure"), ("balance_chakra", "balance"), ("charge_energy", "charge")] ∧
    ∃ value m', (quantum .measure).call [.object ⟨0⟩] qubitMachine = (.ok value, m') ∧
      Method.call (.object ⟨0⟩) "measure" [] qubitMachine = (.ok value, m') := by
  refine ⟨by simp, ?_⟩
  obtain ⟨f, hnamed, hagree⟩ := spellings_agree.1 ("measure", "measure") (by simp)
  obtain rfl : quantum .measure = f := Option.some.inj (Eq.trans (by decide) hnamed)
  exact ⟨_, _, rfl, (hagree (.object ⟨0⟩) [] qubitMachine).eq_ok⟩

end QuantumScript.Native
