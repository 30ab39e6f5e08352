import QuantumScript.Proofs.Creation.Parts
import QuantumScript.Proofs.Cursor.Forms
import QuantumScript.Proofs.Cursor.Stmt

/-!
# Creations are read with a cursor

The routines for creation files follow the readers of forms. Then the laws for programs and for
creations are put together for whole readings, from the first token to the end mark
(`readings_settle`).
-/

namespace QuantumScript

open Token Reading Creation

/-- The tokens that a creation file is made of, with the mark at its end. -/
def Tokens.significant (tokens : Tokens) : Tokens :=
  ⟨Creation.significant tokens.items, tokens.ending⟩

namespace Cursor

variable {items ts : List Token} {rank bound : Nat} {α : Type} {n : Nat}

/-! ## Values -/

/-- A test whether a property starts looks at the token behind a name, or at the end mark. -/
theorem follows_atProperty {next : Bool → Cursor α} {reading : Except Stuck (Found α n)}
    (h : Follows items rank (next (startsProperty ts)) ts reading) :
    Follows items rank (atProperty >>= next) ts reading := by
  refine follows_of_ok (fun frame here hfaces => ?_) h
  unfold atProperty
  rw [bind_of_ok hfaces.peek]
  cases ts with
  | nil => rfl
  | cons t after =>
    rw [List.head?_cons, Option.map_some]
    cases hk : t.kind with
    | name name =>
      show (look (here + 1) >>= fun cell => return cell.any (·.isSymbol .colon)) frame here = _
      have hbehind : Faces items rank after frame (here + 1) := hfaces.tail
      rw [bind_of_ok (hbehind.look here)]
      cases after with
      | nil => rfl
      | cons u rest =>
        simp only [startsProperty, hk]
        rfl
    | _ =>
      cases after with
      | nil => rfl
      | cons u rest =>
        simp only [startsProperty, hk]
        rfl

/-- The values at the front of some tokens, behind others that were found. -/
def valuesFrom (values : List Json) (ts : List Token) : LooseReading (List Json) ts :=
  .ok ⟨values ++ (splitValues ts).1, (splitValues ts).2,
    Nat.lt_succ_of_le (length_splitValues_le ts)⟩

/-- A round of the values of a property. -/
theorem round_values (items : List Token) (bound : Nat) :
    RoundFollows items 0 bound valueRound pure valuesFrom := by
  intro values us hus finish again hfinish hagain
  have hend (h : splitValues us = ([], us)) :
      Follows items 0 (pure values) us (valuesFrom values us) := by
    simp only [valuesFrom, h, List.append_nil]
    exact follows_nothing values us
  unfold valueRound
  rw [bind_assoc]
  refine follows_peek ?_
  cases us with
  | nil => exact hend rfl
  | cons t after =>
    simp only [List.head?_cons, bind_assoc, ite_bind]
    by_cases hclose : t.isSymbol .closeBrace = true
    · rw [if_pos hclose]
      exact hend (by simp [splitValues, hclose])
    · rw [if_neg hclose]
      refine follows_atProperty ?_
      by_cases hproperty : startsProperty (t :: after) = true
      · rw [if_pos hproperty]
        exact hend (by simp [splitValues, hproperty])
      · rw [if_neg hproperty]
        refine follows_advance ?_
        have hmore := hagain (if t.isSymbol .comma then values else values ++ [literal t]) after
          (Nat.lt_succ_self _)
        have hvalues : (if t.isSymbol .comma then values else values ++ [literal t]) ++
            (splitValues after).1 = values ++ (splitValues (t :: after)).1 := by
          simp only [splitValues, hclose, hproperty]
          split <;> simp
        have hleft : (splitValues (t :: after)).2 = (splitValues after).2 := by
          simp [splitValues, hclose, hproperty]
        simp only [valuesFrom, hvalues, ← hleft] at hmore
        exact hmore

/-- The values of a property of a universe are read. -/
theorem follows_cosmosValue {next : Json → Cursor α} {reading : Except Stuck (Found α n)}
    (h : Follows items 0 (next (collect (splitValues ts).1)) (splitValues ts).2 reading) :
    Follows items 0 (cosmosValue >>= next) ts reading := by
  have hloop := follows_loop (round_values items _) [] (Nat.le_refl ts.length)
  rw [bind_pure] at hloop
  unfold cosmosValue
  rw [bind_assoc]
  exact follows_found hloop h

/-- A comma is skipped. -/
theorem follows_skipComma {reader : Cursor α} {reading : Except Stuck (Found α n)}
    (h : Follows items 0 reader (skipComma ts) reading) :
    Follows items 0 (accept (·.isSymbol .comma) >>= fun _ => reader) ts reading := by
  rcases head_cases (·.isSymbol .comma) ts with ⟨t, after, rfl, ht⟩ | hnot
  · intro frame here hfaces
    rw [bind_of_ok (hfaces.accept ht)]
    rw [skipComma, if_pos ht] at h
    exact h frame (here + 1) hfaces.tail
  · have hsame : skipComma ts = ts := by
      cases ts with
      | nil => rfl
      | cons t after => exact if_neg (ne_true_of_eq_false hnot)
    rw [hsame] at h
    exact follows_of_ok (fun _ _ hfaces => hfaces.reject hnot) h

/-! ## Properties -/

/-- A round of properties, by what is read behind the colon of one. -/
theorem round_properties {value : Cursor Json} {want : Expectation}
    {reading : Properties → (ts : List Token) → Reading Properties ts}
    (tail : Properties → String → (ts : List Token) → Reading Properties ts)
    (hend : ∀ found, reading found [] = .error ⟨.expected want, []⟩)
    (hcons : ∀ found t after, reading found (t :: after) =
      if t.isSymbol .closeBrace then .token found t after
      else
        (takeName .propertyName (t :: after)).andThen fun key rest _ =>
        (takeSymbol .colon .colonAfterProperty rest).andThen fun _ rest _ => tail found key.1 rest)
    (htail : ∀ found key ts (again : Properties → Cursor Properties),
      (∀ state rest, rest.length ≤ ts.length →
        Follows items 0 (again state) rest (reading state rest)) →
      Follows items 0 (value >>= fun json => again (Properties.put key json found)) ts
        (tail found key ts)) (bound : Nat) :
    RoundFollows items 0 bound (propertyRound value)
      (fun found => expectSymbol .closeBrace want >>= fun _ => pure found) reading := by
  intro found us hus finish again hfinish hagain
  simp only [propertyRound, bind_assoc, ite_bind]
  refine follows_check ?_
  cases us with
  | nil =>
    have hstuck : Follows items 0 (expectSymbol .closeBrace want >>= fun _ => pure found) []
        ((takeSymbol .closeBrace want []).map fun _ => found) :=
      follows_map follows_expect fun _ => rfl
    rw [hend]
    exact follows_isAtEnd hstuck
  | cons t after =>
    rw [hcons]
    by_cases hclose : t.isSymbol .closeBrace = true
    · have hdone : Follows items 0 (expectSymbol .closeBrace want >>= fun _ => pure found)
          (t :: after) ((takeSymbol .closeBrace want (t :: after)).map fun _ => found) :=
        follows_map follows_expect fun _ => rfl
      rw [takeSymbol, take, if_pos hclose] at hdone
      simp only [List.head?_cons, Option.any_some, hclose, if_true]
      exact hdone
    · simp only [List.head?_cons, Option.any_some, hclose, Bool.false_eq_true, if_false]
      refine follows_isAtEnd ?_
      refine follows_andThen_of follows_expectName fun key rest hkey => ?_
      refine follows_andThen follows_expect fun _ rest' hcolon => ?_
      refine htail found key.1 rest' again fun state last hlast => ?_
      exact hagain state last (by omega)

/-- The properties of a universe are read. -/
theorem follows_cosmosProperties :
    Follows items 0 (properties cosmosValue .universeEnd) ts (cosmosProperties [] ts) := by
  refine follows_loop (round_properties (fun found key us =>
    (cosmosProperties (Properties.put key (collect (splitValues us).1) found)
      (splitValues us).2).widen (length_splitValues_le us)) ?_ ?_ ?_ _) [] (Nat.le_refl _)
  · exact fun found => by rw [cosmosProperties]
  · exact fun found t after => by rw [cosmosProperties]
  · intro found key us again hagain
    refine follows_cosmosValue (follows_widen.2 ?_)
    exact hagain _ _ (length_splitValues_le us)

/-- The properties of an entity are read. -/
theorem follows_entityProperties :
    Follows items 0 (properties entityValue .entityEnd) ts (entityProperties [] ts) := by
  refine follows_loop (round_properties (fun found key us =>
    (take (fun _ => true) .propertyValue us).andThen fun value rest _ =>
    (entityProperties (Properties.put key (literal value) found) (skipComma rest)).widen
      (length_skipComma_le rest)) ?_ ?_ ?_ _) [] (Nat.le_refl _)
  · exact fun found => by rw [entityProperties]
  · exact fun found t after => by rw [entityProperties]
  · intro found key us again hagain
    simp only [entityValue, bind_assoc]
    refine follows_andThen follows_expect fun t rest hrest => ?_
    refine follows_skipComma (follows_widen.2 (hagain _ _ ?_))
    exact Nat.le_trans (length_skipComma_le rest) (Nat.le_of_lt hrest)

/-! ## Forms -/

/-- A given word is a name that is this word. -/
theorem take_isWord (word : String) (want : Expectation) (ts : List Token) :
    (take (isWord word) want ts).map (fun _ => ()) =
      match takeName want ts with
      | .error stuck => .error stuck
      | .ok found =>
        if found.value.1 = word then .ok ⟨(), found.rest, found.shorter⟩
        else .error ⟨.expected want, ts⟩ := by
  cases ts with
  | nil => rfl
  | cons t after =>
    cases hk : t.kind with
    | name name =>
      by_cases hname : name = word
      · simp [take, isWord, takeName, hk, hname, Reading.token, Reading.map]
      · simp [take, isWord, takeName, hk, hname, Reading.token, Reading.map]
    | _ => simp [take, isWord, takeName, hk, Reading.map]

/-- The word `with` is read. -/
theorem follows_withWord :
    Follows items rank withWord ts ((take (isWord "with") .withWord ts).map fun _ => ()) := by
  rw [take_isWord]
  refine follows_bind_of (Nat.le_refl _) (follows_map_id.2 follows_withRegion_expectName) ?_ ?_
  · intro stuck hstuck
    rw [hstuck]
  · rintro ⟨⟨word, region⟩, rest, hshorter⟩ hfound
    rw [hfound]
    obtain ⟨t, rfl, hk, hspan⟩ := yields_takeName.1 ⟨hshorter, hfound⟩
    show Follows items 0 (if word = "with" then pure () else
      fail ⟨.expectedToken .withWord word, some region⟩) rest _
    by_cases hword : word = "with"
    · simp only [hword, if_true]
      exact follows_pure () _
    · simp only [hword, if_false]
      refine follows_fail fun ending => ?_
      simp only [Stuck.fault, Stuck.cause, Stuck.got, hk, hspan]
      rfl

variable {t : Token}

/-- A universe is read, from its word on. -/
theorem follows_cosmosForm :
    Follows items rank cosmosForm (t :: ts) (Reading.behind t (Creation.cosmosForm ts)) := by
  refine follows_advance (follows_behind.2 ?_)
  refine follows_andThen_of follows_expectName fun name rest _ => ?_
  refine follows_andThen follows_expect fun _ rest _ => ?_
  exact follows_map follows_cosmosProperties fun _ => rfl

/-- An entity is read, from its word on. -/
theorem follows_entityForm :
    Follows items rank entityForm (t :: ts) (Reading.behind t (Creation.entityForm ts)) := by
  refine follows_advance (follows_behind.2 ?_)
  refine follows_andThen_of follows_expectName fun name rest _ => ?_
  refine follows_andThen follows_expect fun _ rest _ => ?_
  exact follows_map follows_entityProperties fun _ => rfl

/-- A manifestation is read, from its word on. -/
theorem follows_manifestForm :
    Follows items rank manifestForm (t :: ts) (Reading.behind t (Creation.manifestForm ts)) := by
  refine follows_advance (follows_behind.2 ?_)
  refine follows_andThen_of follows_expectName fun cosmos rest _ => ?_
  refine follows_andThen_of follows_withWord fun _ rest _ => ?_
  exact follows_map_of follows_expectName fun _ => rfl

/-- A flow is read, from its word on. -/
theorem follows_flowForm :
    Follows items rank flowForm (t :: ts) (Reading.behind t (Creation.flowForm ts)) := by
  refine follows_advance (follows_behind.2 ?_)
  refine follows_andThen_of follows_expectName fun _ rest _ => ?_
  exact follows_map follows_expect fun _ => rfl

/-- An observation is read, from its word on. -/
theorem follows_observeForm :
    Follows items rank observeForm (t :: ts) (Reading.behind t (Creation.observeForm ts)) := by
  refine follows_advance (follows_behind.2 ?_)
  exact follows_map_of follows_expectName fun _ => rfl

/-- A token leads the same form for both readers, or none. -/
theorem form?_cases (t : Token) :
    (form? t = none ∧ Creation.form? t = none) ∨
      ∃ reader form, form? t = some reader ∧ Creation.form? t = some form ∧
        ∀ items ts, Follows items 0 reader (t :: ts) (Reading.behind t (form ts)) := by
  unfold form?
  split
  · rename_i hk
    exact .inr ⟨_, _, rfl, by simp only [Creation.form?, hk], fun _ _ => follows_cosmosForm⟩
  · rename_i hk
    exact .inr ⟨_, _, rfl, by simp only [Creation.form?, hk], fun _ _ => follows_entityForm⟩
  · rename_i hk
    exact .inr ⟨_, _, rfl, by simp only [Creation.form?, hk], fun _ _ => follows_manifestForm⟩
  · rename_i hk
    exact .inr ⟨_, _, rfl, by simp only [Creation.form?, hk], fun _ _ => follows_flowForm⟩
  · rename_i hk
    exact .inr ⟨_, _, rfl, by simp only [Creation.form?, hk], fun _ _ => follows_observeForm⟩
  · refine .inl ⟨rfl, ?_⟩
    unfold Creation.form?
    split <;> first | rfl | contradiction

/-- A round of the forms. -/
theorem round_forms (items : List Token) (bound : Nat) :
    RoundFollows items 0 bound formRound pure fun state ts =>
      entire ((Creation.forms ts).map fun others => state ++ others) := by
  intro state us hus finish again hfinish hagain
  unfold formRound
  rw [bind_assoc]
  refine follows_peek ?_
  cases us with
  | nil =>
    have hend : (Creation.forms []).map (fun others => state ++ others) = .ok state := by
      rw [Creation.forms, Except.map, List.append_nil]
    dsimp only
    rw [hend]
    exact follows_entire state
  | cons t after =>
    have hafter := Nat.lt_succ_self after.length
    rcases form?_cases t with ⟨hreader, hform⟩ | ⟨reader, form, hreader, hform, hfollows⟩
    · simp only [List.head?_cons, hreader, bind_assoc]
      refine follows_advance ?_
      rw [Creation.forms, hform]
      exact hagain state after hafter
    · simp only [List.head?_cons, hreader, bind_assoc]
      have hreading : Follows items 0 reader (t :: after) ((form after).map id) :=
        follows_map_id.2 (follows_behind.1 (hfollows items after))
      refine follows_bind_of (Nat.le_succ _) hreading ?_ ?_
      · intro stuck hstuck
        rw [Creation.forms, hform]
        simp only [hstuck]
        rfl
      · intro found hfound
        have hstep : Creation.forms (t :: after) =
            (Creation.forms found.rest).map fun others => found.value :: others := by
          rw [Creation.forms, hform]
          simp only [hfound]
        rw [hstep, map_append_cons]
        exact hagain (state ++ [found.value]) found.rest (Nat.lt_succ_of_lt found.shorter)

/-- The forms of a creation are read. -/
theorem follows_forms : Follows items 0 forms ts (entire (Creation.forms ts)) := by
  have hloop := follows_loop (round_forms items _) [] (Nat.le_refl ts.length)
  rw [bind_pure, map_nil_append] at hloop
  exact hloop

/-! ## Whole readings -/

/-- What comes of a reading with a cursor that does not slip: a value with the cursor at the end
mark, or a fault. -/
def settled {α : Type} (tokens : Tokens) (value : Except Fault α) : Except Halt (α × Nat) :=
  match value with
  | .ok value => .ok (value, tokens.items.length)
  | .error fault => .error (.fault fault)

/-- A reader that follows a reading of all tokens settles as this does. -/
theorem start_of_follows {α : Type} {reader : Cursor α} {tokens : Tokens} {value : Except Stuck α}
    {allowance : Nat} (h : Follows tokens.items 0 reader tokens.items (entire value))
    (hspare : tokens.items.length < allowance) :
    reader.start tokens allowance =
      settled tokens (value.mapError fun stuck => stuck.fault tokens.ending) := by
  have hfaces : Faces tokens.items 0 tokens.items ⟨tokens, allowance, fun _ => 0⟩ 0 :=
    ⟨rfl, List.drop_zero, Nat.zero_add _, fun _ => ⟨Nat.zero_le _, fun _ => Nat.le_refl _⟩, hspare⟩
  have hagrees := h _ 0 hfaces
  cases value with
  | error stuck => exact hagrees
  | ok value =>
    obtain ⟨there, hdone, -, hsize⟩ := hagrees
    have hthere : there = tokens.items.length := hsize
    rw [hthere] at hdone
    exact hdone

/-- Programs and creations are read with a cursor to the same end as from the list of tokens, be the
tokens what they are and in whatever order. The readers never slip: no look is outside the list, the
cursor never moves behind the end mark and stands at it in the end if there is no fault, each round of
a loop takes a token, and so does each routine before it is called inside itself. A loop goes round,
and a routine calls itself, no more often than there are tokens, and once; more may be allowed. -/
theorem readings_settle (tokens : Tokens) (beyond : Nat) :
    program.start tokens (tokens.items.length + 1 + beyond) = settled tokens (parse tokens) ∧
      forms.start tokens.significant (tokens.significant.items.length + 1 + beyond) =
        settled tokens.significant ((Creation.forms tokens.significant.items).mapError fun stuck =>
          stuck.fault tokens.ending) := by
  constructor
  · have hparse : parse tokens = (Parser.statements (skipSeparators tokens.items)).mapError
        fun stuck => stuck.fault tokens.ending := by
      unfold parse
      cases Parser.statements (skipSeparators tokens.items) <;> rfl
    rw [hparse]
    exact start_of_follows follows_program (by omega)
  · exact start_of_follows follows_forms (by omega)

end Cursor

end QuantumScript
