import QuantumScript.Proofs.Creation.Parts
import QuantumScript.Proofs.Token.Written

/-!
# The shape of instructions

The instructions that lexical tokens spell have a shape (`Form.shaped`): names are identifiers, and
the properties are an ascending map from identifiers to scalars, or, in a universe only, to arrays
of at least two scalars. So have all that a source text is lowered to (`shaped_of_lower`).
-/

namespace QuantumScript

/-! ## Properties as a map -/

namespace Properties

variable {name : String} {value : Json} {entry : String × Json} {properties : Properties}
  {entries : List (String × Json)}

/-- The names of properties ascend. -/
def Ascending (properties : Properties) : Prop :=
  properties.Pairwise fun entry next => entry.1 < next.1

/-- A property after one is put is that one or was there. -/
theorem mem_put (h : entry ∈ put name value properties) :
    entry = (name, value) ∨ entry ∈ properties := by
  induction properties with
  | nil => exact .inl (List.mem_singleton.1 h)
  | cons first rest ih =>
    rw [put] at h
    split at h
    · exact List.mem_cons.1 h
    split at h
    · exact (List.mem_cons.1 h).imp id (List.mem_cons_of_mem first)
    · rcases List.mem_cons.1 h with rfl | h
      · exact .inr List.mem_cons_self
      · exact (ih h).imp id (List.mem_cons_of_mem first)

/-- Names still ascend after a property is put. -/
theorem Ascending.put (h : properties.Ascending) : (put name value properties).Ascending := by
  induction properties with
  | nil => exact List.pairwise_singleton _ _
  | cons first rest ih =>
    obtain ⟨hfirst, hrest⟩ := List.pairwise_cons.1 h
    rw [Properties.put]
    split
    · rename_i hlt
      refine List.pairwise_cons.2 ⟨?_, h⟩
      exact List.forall_mem_cons.2 ⟨hlt, fun next hnext => String.lt_trans hlt (hfirst next hnext)⟩
    split
    · rename_i heq
      exact List.pairwise_cons.2 ⟨fun next hnext => heq ▸ hfirst next hnext, hrest⟩
    · rename_i hle hne
      refine List.pairwise_cons.2 ⟨fun next hnext => ?_, ih hrest⟩
      rcases mem_put hnext with rfl | hnext
      · exact Std.lt_of_le_of_ne hle (Ne.symm hne)
      · exact hfirst next hnext

/-- To put a property under a new name is to add it. -/
theorem put_perm (h : ∀ entry ∈ properties, entry.1 ≠ name) :
    (put name value properties).Perm ((name, value) :: properties) := by
  induction properties with
  | nil => exact .refl _
  | cons first rest ih =>
    obtain ⟨hfirst, hrest⟩ := List.forall_mem_cons.1 h
    rw [put, if_neg (Ne.symm hfirst)]
    split
    · exact .refl _
    · exact ((ih hrest).cons first).trans (.swap _ _ _)

/-- A property after some are put is one of them or was there. -/
theorem mem_putAll (h : entry ∈ putAll entries properties) :
    entry ∈ entries ∨ entry ∈ properties := by
  induction entries generalizing properties with
  | nil => exact .inr h
  | cons first entries ih =>
    rcases ih h with hmem | hmem
    · exact .inl (List.mem_cons_of_mem first hmem)
    · rcases mem_put hmem with rfl | hmem
      · exact .inl List.mem_cons_self
      · exact .inr hmem

/-- Names still ascend after properties are put. -/
theorem Ascending.putAll (h : properties.Ascending) : (putAll entries properties).Ascending := by
  induction entries generalizing properties with
  | nil => exact h
  | cons first entries ih => exact ih h.put

/-- To put properties under new and different names is to add them. -/
theorem putAll_perm (hnew : ∀ entry ∈ entries, ∀ old ∈ properties, old.1 ≠ entry.1)
    (hapart : entries.Pairwise fun entry next => entry.1 ≠ next.1) :
    (putAll entries properties).Perm (entries ++ properties) := by
  induction entries generalizing properties with
  | nil => exact .refl _
  | cons first entries ih =>
    obtain ⟨hfirst, hentries⟩ := List.forall_mem_cons.1 hnew
    obtain ⟨hapart, hrest⟩ := List.pairwise_cons.1 hapart
    have hput : (put first.1 first.2 properties).Perm (first :: properties) := put_perm hfirst
    have hall : (putAll entries (put first.1 first.2 properties)).Perm
        (entries ++ put first.1 first.2 properties) := by
      refine ih (fun entry hentry old hold => ?_) hrest
      rcases mem_put hold with rfl | hold
      · exact hapart entry hentry
      · exact hentries entry hentry old hold
    exact hall.trans ((hput.append_left entries).trans List.perm_middle)

/-- Properties with ascending names come of putting them in any order. -/
theorem Ascending.putAll_of_perm (h : properties.Ascending) (hperm : entries.Perm properties) :
    Properties.putAll entries [] = properties := by
  have hapart : properties.Pairwise fun entry next => entry.1 ≠ next.1 := by
    refine List.Pairwise.imp ?_ h
    intro entry next hlt heq
    rw [heq] at hlt
    exact String.lt_irrefl _ hlt
  have hput : (Properties.putAll entries []).Perm (entries ++ []) :=
    putAll_perm (fun _ _ _ hold => absurd hold List.not_mem_nil)
      (hperm.symm.pairwise hapart fun hne => hne.symm)
  rw [List.append_nil] at hput
  have hascending : (Properties.putAll entries []).Ascending := Ascending.putAll List.Pairwise.nil
  exact List.Perm.eq_of_pairwise
    (fun entry next _ _ hlt hgt => absurd hgt (String.lt_asymm hlt)) hascending h (hput.trans hperm)

end Properties

open Token

/-! ## Instructions -/

/-- A number as a document: an integer if it is whole and short, and nothing if it is not finite. -/
def Json.ofNumber (n : Float) : Json :=
  if Number.isShortWhole n then .integer (Number.truncate n)
  else if n.isFinite then .real n
  else .null

/-- A document that a single token stands for. -/
inductive Json.Scalar : Json → Prop
  /-- Nothing. -/
  | null : Scalar .null
  /-- A truth value. -/
  | bool (value : Bool) : Scalar (.bool value)
  /-- A text. -/
  | text (value : String) : Scalar (.text value)
  /-- The number of a numeral. -/
  | number {n : Float} (numeral : IsNumeral n) : Scalar (Json.ofNumber n)

/-- A document that may be a property of a universe: a scalar or at least two of them. -/
def Json.ScalarOrArray (value : Json) : Prop :=
  value.Scalar ∨ ∃ items : List Json, value = .array items ∧ 2 ≤ items.length ∧
    ∀ item ∈ items, item.Scalar

/-- Properties with ascending identifiers for their names and values that fit. -/
structure Properties.Shaped (fits : Json → Prop) (properties : Properties) : Prop where
  /-- The names ascend. -/
  ascending : properties.Ascending
  /-- The names are identifiers. -/
  named : ∀ entry ∈ properties, IsIdentifier entry.1
  /-- The values fit. -/
  valued : ∀ entry ∈ properties, fits entry.2

/-- The shape of an instruction: names are identifiers, and values are scalars or, in a universe,
arrays of them. The direction in which time flows is any text. -/
def Instruction.Shaped : Instruction → Prop
  | .cosmos name properties => IsIdentifier name ∧ properties.Shaped Json.ScalarOrArray
  | .entity name properties => IsIdentifier name ∧ properties.Shaped Json.Scalar
  | .manifest place guest => IsIdentifier place ∧ IsIdentifier guest
  | .flowTime _ => True
  | .observe target => IsIdentifier target

namespace Creation

variable {run : List Token} {entries : List (String × Json)} {i : Instruction}

/-- A number token stands for its number. -/
theorem literal_number {t : Token} {n : Float} (h : t.kind = .number n) :
    literal t = Json.ofNumber n := by
  rw [literal, h]
  rfl

/-- A lexical token stands for a scalar. -/
theorem scalar_literal {t : Token} (h : t.kind.Lexical) : (literal t).Scalar := by
  cases hk : t.kind with
  | number n =>
    rw [literal_number hk]
    rw [hk] at h
    exact .number h
  | text value | name value | symbol sign | newline =>
    simp only [literal, hk]
    exact .text _
  | keyword word =>
    simp only [literal, hk]
    cases word <;> constructor

/-- Lexical values stand for scalars. -/
theorem scalar_literals {values : List Token} (h : ∀ t ∈ values, t.kind.Lexical) :
    ∀ item ∈ literals values, item.Scalar := by
  intro item hitem
  obtain ⟨t, ht, rfl⟩ := List.mem_map.1 hitem
  exact scalar_literal (h t (List.mem_filter.1 ht).1)

/-- What scalars are collected to is a scalar or an array. -/
theorem scalarOrArray_collect {items : List Json} (h : ∀ item ∈ items, item.Scalar) :
    (collect items).ScalarOrArray := by
  match items with
  | [] => exact .inl .null
  | [item] => exact .inl (h item List.mem_cons_self)
  | first :: second :: rest => exact .inr ⟨_, rfl, by simp, h⟩

/-- Entries with identifiers for their names and values that fit. -/
def EntriesFit (fits : Json → Prop) (entries : List (String × Json)) : Prop :=
  ∀ entry ∈ entries, IsIdentifier entry.1 ∧ fits entry.2

/-- Entries that fit make up shaped properties. -/
theorem EntriesFit.shaped {fits : Json → Prop} (h : EntriesFit fits entries) :
    (Properties.putAll entries []).Shaped fits := by
  have hmem (entry : String × Json) (hentry : entry ∈ Properties.putAll entries []) :
      entry ∈ entries :=
    (Properties.mem_putAll hentry).resolve_right List.not_mem_nil
  exact ⟨Properties.Ascending.putAll List.Pairwise.nil, fun entry hentry => (h _ (hmem _ hentry)).1,
    fun entry hentry => (h _ (hmem _ hentry)).2⟩

/-- The entries of a universe fit if its tokens are lexical. -/
theorem CosmosBody.entriesFit {body : List Token} (h : CosmosBody body entries)
    (hlex : ∀ t ∈ body, t.kind.Lexical) : EntriesFit Json.ScalarOrArray entries := by
  induction h with
  | nil => nofun
  | property named parted plain more ih =>
    simp only [List.forall_mem_cons, List.forall_mem_append, named] at hlex
    exact List.forall_mem_cons.2
      ⟨⟨hlex.1, scalarOrArray_collect (scalar_literals hlex.2.2.1)⟩, ih hlex.2.2.2⟩

/-- The entries of an entity fit if its tokens are lexical. -/
theorem EntityBody.entriesFit {fits : Token → Prop} {body : List Token}
    (h : EntityBody fits body entries) (hlex : ∀ t ∈ body, t.kind.Lexical) :
    EntriesFit Json.Scalar entries := by
  induction h with
  | nil => nofun
  | property named parted valued spaced more ih =>
    simp only [List.forall_mem_cons, List.forall_mem_append, named] at hlex
    exact List.forall_mem_cons.2 ⟨⟨hlex.1, scalar_literal hlex.2.2.1⟩, ih hlex.2.2.2.2⟩

/-- The instruction of a form of lexical tokens has its shape. -/
theorem Form.shaped {rule : Rule} (h : Form rule run i) (hlex : ∀ t ∈ run, t.kind.Lexical) :
    i.Shaped := by
  cases h with
  | cosmos led named opened inside closed =>
    simp only [List.forall_mem_cons, List.forall_mem_append, named] at hlex
    exact ⟨hlex.2.1, (inside.entriesFit hlex.2.2.2.1).shaped⟩
  | entity led named opened inside closed =>
    simp only [List.forall_mem_cons, List.forall_mem_append, named] at hlex
    exact ⟨hlex.2.1, (inside.entriesFit hlex.2.2.2.1).shaped⟩
  | manifest led placed joined hosted =>
    simp only [List.forall_mem_cons, placed, hosted] at hlex
    exact ⟨hlex.2.1, hlex.2.2.2.1⟩
  | flow => trivial
  | observe led named =>
    simp only [List.forall_mem_cons, named] at hlex
    exact hlex.2.1

/-- The instructions that a source text is lowered to have their shape. -/
theorem shaped_of_lower {source : String} {instructions : List Instruction}
    (h : lower source = .ok instructions) : ∀ i ∈ instructions, i.Shaped := by
  obtain ⟨tokens, parts, htokens, hparts, rfl⟩ := exists_partsOf_of_lower h
  intro i hi
  obtain ⟨part, hpart, hi⟩ := List.mem_filterMap.1 hi
  cases part with
  | passed t => cases hi
  | form run j =>
    cases hi
    refine Form.shaped (hparts.fit _ hpart) fun t ht => ?_
    have hmem : t ∈ significant tokens.items := by
      rw [hparts.whole]
      exact List.mem_flatMap.2 ⟨_, hpart, ht⟩
    exact lexical_of_tokenize htokens t (List.mem_filter.1 hmem).1

end Creation

end QuantumScript
