import Mathlib.Data.List.TakeWhile
import QuantumScript.Creation.Instruction

/-!
# Documents are determined by their texts

Two documents have the same text only if they are the same, as long as all their numbers are
integers (`Json.render_inj`), and so have two creations whose properties are such documents
(`Creation.text_eq_iff`).

The text of a document shows where it ends: with anything behind the texts of two documents, the
whole is the same only if the documents and what stands behind them are the same (`Json.Told`). Only
an integer is not closed by a sign of its own, so what stands behind must not go on with one. Inside
a text between quotes no character is written as a quote is, and so the first quote closes it.
-/

namespace QuantumScript

namespace Json

variable {c d : Char} {cs ds r s : List Char}

/-! ## Characters in texts -/

/-- The value of a lower case hexadecimal digit. -/
def hexValue (c : Char) : Nat :=
  if c.isDigit then c.toNat - '0'.toNat else c.toNat - 'a'.toNat + 10

/-- The character that a mark after a backslash stands for. -/
def shortEscape (mark : Char) : Char :=
  if mark = 'b' then '\x08'
  else if mark = 'f' then '\x0c'
  else if mark = 'n' then '\n'
  else if mark = 'r' then '\r'
  else if mark = 't' then '\t'
  else mark

/-- The character that is written at the front of some characters, and what follows it. -/
def unescape : List Char → Option (Char × List Char)
  | '\\' :: 'u' :: _ :: _ :: high :: low :: rest =>
    some (Char.ofNat (16 * hexValue high + hexValue low), rest)
  | '\\' :: mark :: rest => some (shortEscape mark, rest)
  | c :: rest => some (c, rest)
  | [] => none

/-- Two hexadecimal digits give back a number below 32. -/
theorem hexValue_hexPair :
    ∀ n < 0x20, 16 * hexValue (Nat.digitChar (n / 16)) + hexValue (Nat.digitChar (n % 16)) = n := by
  decide

/-- What is written for a character gives it back. -/
theorem unescape_escapeChar (c : Char) (rest : List Char) :
    unescape (escapeChar c ++ rest) = some (c, rest) := by
  unfold escapeChar
  -- Seven characters are written with a mark of their own.
  iterate 7
    split
    · subst_vars
      rfl
  split
  · rename_i hsmall
    show some (Char.ofNat _, rest) = _
    rw [hexValue_hexPair c.toNat hsmall, Char.ofNat_toNat]
  · rename_i hslash _ _ _ _ _ _
    rw [List.cons_append, List.nil_append]
    unfold unescape
    split <;> simp_all

/-- No character is written as a quote is. -/
theorem escapeChar_append_ne (c : Char) (r s : List Char) : escapeChar c ++ r ≠ '"' :: s := by
  intro h
  have hread : unescape (escapeChar c ++ r) = some ('"', s) := by
    rw [h]
    rfl
  rw [unescape_escapeChar] at hread
  cases hread
  cases h

/-- The first quote closes a text. -/
theorem escaped_cancel (h : cs.flatMap escapeChar ++ '"' :: r = ds.flatMap escapeChar ++ '"' :: s) :
    cs = ds ∧ r = s := by
  induction cs generalizing ds with
  | nil =>
    cases ds with
    | nil => exact ⟨rfl, List.tail_eq_of_cons_eq h⟩
    | cons d ds =>
      rw [List.flatMap_cons, List.append_assoc] at h
      exact absurd h.symm (escapeChar_append_ne d _ _)
  | cons c cs ih =>
    cases ds with
    | nil =>
      rw [List.flatMap_cons, List.append_assoc] at h
      exact absurd h (escapeChar_append_ne c _ _)
    | cons d ds =>
      simp only [List.flatMap_cons, List.append_assoc] at h
      have hread := congrArg unescape h
      rw [unescape_escapeChar, unescape_escapeChar, Option.some_inj, Prod.mk.injEq] at hread
      obtain ⟨rfl, hmore⟩ := hread
      obtain ⟨rfl, hrest⟩ := ih hmore
      exact ⟨rfl, hrest⟩

/-- A text between quotes shows where it ends. -/
theorem quote_cancel {a b : String} (h : (quote a).toList ++ r = (quote b).toList ++ s) :
    a = b ∧ r = s := by
  simp only [quote, String.toList_ofList, List.cons_append, List.append_assoc, List.nil_append,
    List.cons.injEq, true_and] at h
  obtain ⟨hchars, hrest⟩ := escaped_cancel h
  exact ⟨String.toList_injective hchars, hrest⟩

/-! ## Integers -/

/-- A character that integers are written with. -/
def numeric (c : Char) : Bool := c = '-' || c.isDigit

/-- What follows does not go on with a number. -/
def Stops (rest : List Char) : Prop := ∀ c ∈ rest.head?, numeric c = false

/-- A character that no integer is written with stops a number. -/
theorem stops_cons (h : numeric c = false) : Stops (c :: r) := by
  rintro _ ⟨⟩
  exact h

/-- An integer is written with a sign and digits only, and at least one digit. -/
theorem numeric_toString (n : Int) :
    (∀ c ∈ (toString n).toList, numeric c = true) ∧ (toString n).toList ≠ [] := by
  have hdigits (m : Nat) : ∀ c ∈ m.repr.toList, numeric c = true := by
    intro c hc
    rw [Nat.repr_eq_ofList_toDigits, String.toList_ofList] at hc
    simp [numeric, Nat.isDigit_of_mem_toDigits (by decide) (by decide) hc]
  show (∀ c ∈ n.repr.toList, numeric c = true) ∧ n.repr.toList ≠ []
  rw [Int.repr_eq_if]
  split
  · exact ⟨hdigits _, by simp⟩
  · rw [String.toList_append]
    exact ⟨List.forall_mem_append.2 ⟨by simp [numeric], hdigits _⟩, by simp⟩

/-- Characters of integers end where what follows stops. -/
theorem numeric_cancel (hcs : ∀ c ∈ cs, numeric c = true) (hds : ∀ c ∈ ds, numeric c = true)
    (hr : Stops r) (hs : Stops s) (h : cs ++ r = ds ++ s) : cs = ds ∧ r = s := by
  have htaken (as rest : List Char) (has : ∀ c ∈ as, numeric c = true) (hrest : Stops rest) :
      (as ++ rest).takeWhile numeric = as := by
    rw [List.takeWhile_append_of_pos has]
    cases rest with
    | nil => simp
    | cons c rest => simp [List.takeWhile_cons_of_neg, hrest c rfl]
  have hsame := congrArg (List.takeWhile numeric) h
  rw [htaken cs r hcs hr, htaken ds s hds hs] at hsame
  subst hsame
  exact ⟨rfl, List.append_cancel_left h⟩

/-- Numbers with the same digits are the same. -/
theorem natRepr_inj {m n : Nat} (h : m.repr = n.repr) : m = n := by
  simp only [Nat.repr_eq_ofList_toDigits] at h
  have hdigits := String.ofList_injective h
  calc m = Nat.ofDigitChars 10 (Nat.toDigits 10 m) 0 := Nat.ofDigitChars_ten_toDigits.symm
    _ = Nat.ofDigitChars 10 (Nat.toDigits 10 n) 0 := by rw [hdigits]
    _ = n := Nat.ofDigitChars_ten_toDigits

/-- A number without a sign is not written as one with a sign. -/
theorem natRepr_ne_minus (m : Nat) (text : String) : m.repr ≠ "-" ++ text := by
  intro h
  have hminus : '-' ∈ m.repr.toList := by simp [h]
  rw [Nat.repr_eq_ofList_toDigits, String.toList_ofList] at hminus
  exact absurd (Nat.isDigit_of_mem_toDigits (by decide) (by decide) hminus) (by decide)

/-- Integers with the same sign and digits are the same. -/
theorem intRepr_inj {m n : Int} (h : m.repr = n.repr) : m = n := by
  rw [Int.repr_eq_if, Int.repr_eq_if] at h
  split at h <;> split at h
  · have hsame := natRepr_inj h
    omega
  · exact absurd h (natRepr_ne_minus _ _)
  · exact absurd h.symm (natRepr_ne_minus _ _)
  · have hchars := congrArg String.toList h
    rw [String.toList_append, String.toList_append] at hchars
    have hsame := natRepr_inj (String.toList_injective (List.append_cancel_left hchars))
    omega

/-- An integer shows where it ends, if what follows stops it. -/
theorem toString_cancel {m n : Int} (hr : Stops r) (hs : Stops s)
    (h : (toString m).toList ++ r = (toString n).toList ++ s) : m = n ∧ r = s := by
  obtain ⟨hchars, hrest⟩ := numeric_cancel (numeric_toString m).1 (numeric_toString n).1 hr hs h
  exact ⟨intRepr_inj (String.toList_injective hchars), hrest⟩

/-! ## Lines of arrays and objects -/

section Lines

variable {α : Type} {write : α → List Char} {others : α → Prop} {x y : α} {xs ys : List α}
  {opening closing : Char} {tab : List Char}

/-- What is written for a thing tells it from some others, whatever follows. -/
def Told (write : α → List Char) (others : α → Prop) (x : α) : Prop :=
  ∀ ⦃y r s⦄, others y → Stops r → Stops s → write x ++ r = write y ++ s → x = y ∧ r = s

/-- Things between two signs: a line for each of them, with commas between. -/
def lines (opening closing : Char) (tab : List Char) (write : α → List Char) : List α → List Char
  | [] => [opening, closing]
  | x :: xs =>
    opening :: '\n' :: ([',', '\n'].intercalate ((x :: xs).map write) ++ '\n' :: (tab ++ [closing]))

/-- Things that each are told by their line are told by all their lines. -/
theorem intercalate_cancel (hx : ∀ a ∈ x :: xs, Told write others a)
    (hy : ∀ a ∈ y :: ys, others a)
    (h : [',', '\n'].intercalate ((x :: xs).map write) ++ '\n' :: r =
      [',', '\n'].intercalate ((y :: ys).map write) ++ '\n' :: s) :
    x :: xs = y :: ys ∧ r = s := by
  have hend (rest : List Char) : Stops ('\n' :: rest) := stops_cons (by decide)
  have hcomma (rest : List Char) : Stops (',' :: rest) := stops_cons (by decide)
  induction xs generalizing x y ys with
  | nil =>
    have hfirst : Told write others x := hx x List.mem_cons_self
    cases ys with
    | nil =>
      obtain ⟨rfl, hrest⟩ := hfirst (hy y List.mem_cons_self) (hend r) (hend s) (by simpa using h)
      exact ⟨rfl, List.tail_eq_of_cons_eq hrest⟩
    | cons z ys =>
      simp only [List.map_cons, List.map_nil, List.intercalate_singleton,
        List.intercalate_cons_cons, List.append_assoc, List.cons_append] at h
      obtain ⟨-, hrest⟩ := hfirst (hy y List.mem_cons_self) (hend _) (hcomma _) h
      cases hrest
  | cons w xs ih =>
    obtain ⟨hfirst, hmore⟩ := List.forall_mem_cons.1 hx
    obtain ⟨hfits, hothers⟩ := List.forall_mem_cons.1 hy
    cases ys with
    | nil =>
      simp only [List.map_cons, List.map_nil, List.intercalate_singleton,
        List.intercalate_cons_cons, List.append_assoc, List.cons_append] at h
      obtain ⟨-, hrest⟩ := hfirst hfits (hcomma _) (hend _) h
      cases hrest
    | cons z ys =>
      simp only [List.map_cons, List.intercalate_cons_cons, List.append_assoc,
        List.cons_append] at h
      obtain ⟨rfl, hrest⟩ := hfirst hfits (hcomma _) (hcomma _) h
      obtain ⟨hsame, hrest⟩ := ih hmore hothers (by simpa using hrest)
      exact ⟨by rw [hsame], hrest⟩

/-- Things that each are told by their line are told by what is written between two signs. -/
theorem lines_cancel (hclosing : closing ≠ '\n') (hx : ∀ a ∈ xs, Told write others a)
    (hy : ∀ a ∈ ys, others a)
    (h : lines opening closing tab write xs ++ r = lines opening closing tab write ys ++ s) :
    xs = ys ∧ r = s := by
  cases xs with
  | nil =>
    cases ys with
    | nil => exact ⟨rfl, List.append_cancel_left h⟩
    | cons y ys =>
      simp only [lines, List.cons_append, List.cons.injEq, true_and] at h
      exact absurd h.1 hclosing
  | cons x xs =>
    cases ys with
    | nil =>
      simp only [lines, List.cons_append, List.cons.injEq, true_and] at h
      exact absurd h.1.symm hclosing
    | cons y ys =>
      simp only [lines, List.cons_append, List.append_assoc, List.cons.injEq, true_and] at h
      obtain ⟨hsame, hrest⟩ := intercalate_cancel hx hy h
      exact ⟨hsame, by simpa using hrest⟩

end Lines

/-! ## Documents -/

/-- A document whose numbers are all integers. -/
inductive Exact : Json → Prop
  /-- Nothing. -/
  | null : Exact .null
  /-- A truth value. -/
  | bool (value : Bool) : Exact (.bool value)
  /-- An integer. -/
  | integer (value : Int) : Exact (.integer value)
  /-- A text. -/
  | text (value : String) : Exact (.text value)
  /-- An array of such documents. -/
  | array {items : List Json} (fit : ∀ item ∈ items, Exact item) : Exact (.array items)
  /-- An object with such documents. -/
  | object {fields : List (String × Json)} (fit : ∀ field ∈ fields, Exact field.2) :
    Exact (.object fields)

/-- The characters of a document. -/
def write (depth : Nat) (i : Json) : List Char := (render depth i).toList

/-- The line of an item. -/
def itemLine (depth : Nat) (item : Json) : List Char :=
  (indent depth).toList ++ write depth item

/-- The line of a field. -/
def fieldLine (depth : Nat) (field : String × Json) : List Char :=
  (indent depth).toList ++ ((quote field.1).toList ++ (':' :: ' ' :: write depth field.2))

/-- The items of an array stand on lines of their own. -/
theorem toList_renderItems (depth : Nat) (item : Json) (items : List Json) :
    (renderItems depth (item :: items)).toList =
      [',', '\n'].intercalate ((item :: items).map (itemLine depth)) := by
  induction items generalizing item with
  | nil => simp [renderItems, itemLine, write]
  | cons next items ih =>
    rw [renderItems, List.map_cons, List.map_cons, List.intercalate_cons_cons, ← List.map_cons,
      ← ih next]
    simp [itemLine, write]
    nofun

/-- The fields of an object stand on lines of their own. -/
theorem toList_renderFields (depth : Nat) (field : String × Json) (fields : List (String × Json)) :
    (renderFields depth (field :: fields)).toList =
      [',', '\n'].intercalate ((field :: fields).map (fieldLine depth)) := by
  induction fields generalizing field with
  | nil => simp [renderFields, fieldLine, write]
  | cons next fields ih =>
    rw [renderFields, List.map_cons, List.map_cons, List.intercalate_cons_cons, ← List.map_cons,
      ← ih next]
    simp [fieldLine, write]
    nofun

/-- An array is written as lines between brackets. -/
theorem write_array (depth : Nat) (items : List Json) :
    write depth (.array items) =
      lines '[' ']' (indent depth).toList (itemLine (depth + 1)) items := by
  cases items with
  | nil => simp [write, render, lines]
  | cons item items => simp [write, render, lines, toList_renderItems]

/-- An object is written as lines between braces. -/
theorem write_object (depth : Nat) (fields : List (String × Json)) :
    write depth (.object fields) =
      lines '\x7b' '\x7d' (indent depth).toList (fieldLine (depth + 1)) fields := by
  cases fields with
  | nil => simp [write, render, lines]
  | cons field fields => simp [write, render, lines, toList_renderFields]

/-- The shapes of documents that their first characters tell apart. -/
inductive Shape
  | null
  | bool
  | number
  | text
  | array
  | object

/-- The shape of a document. -/
def shape : Json → Shape
  | null => .null
  | bool _ => .bool
  | integer _ | real _ => .number
  | text _ => .text
  | array _ => .array
  | object _ => .object

/-- The shape of the documents that start with a character. -/
def Shape.ofFirst (c : Char) : Shape :=
  if c = 'n' then .null
  else if c = 't' ∨ c = 'f' then .bool
  else if c = '"' then .text
  else if c = '[' then .array
  else if c = '\x7b' then .object
  else .number

/-- A character of an integer starts a number. -/
theorem ofFirst_of_numeric (h : numeric c = true) : Shape.ofFirst c = .number := by
  have hne (d : Char) (hd : numeric d = false) : c ≠ d := by
    rintro rfl
    exact absurd h (by simp [hd])
  simp [Shape.ofFirst, hne _ (by decide : numeric 'n' = false),
    hne _ (by decide : numeric 't' = false), hne _ (by decide : numeric 'f' = false),
    hne _ (by decide : numeric '"' = false), hne _ (by decide : numeric '[' = false),
    hne _ (by decide : numeric '\x7b' = false)]

/-- The first character of a document shows its shape. -/
theorem ofFirst_write {i : Json} (h : i.Exact) (depth : Nat) :
    ∃ c rest, write depth i = c :: rest ∧ Shape.ofFirst c = i.shape := by
  cases h with
  | null => exact ⟨'n', ['u', 'l', 'l'], by rw [write, render]; rfl, rfl⟩
  | bool value =>
    cases value
    · exact ⟨'f', ['a', 'l', 's', 'e'], by rw [write, render]; rfl, rfl⟩
    · exact ⟨'t', ['r', 'u', 'e'], by rw [write, render]; rfl, rfl⟩
  | integer value =>
    obtain ⟨hnumeric, hne⟩ := numeric_toString value
    obtain ⟨c, rest, hcs⟩ := List.exists_cons_of_ne_nil hne
    rw [hcs] at hnumeric
    exact ⟨c, rest, hcs, ofFirst_of_numeric (hnumeric c List.mem_cons_self)⟩
  | text value => exact ⟨'"', _, by rw [write, render, quote, String.toList_ofList]; rfl, rfl⟩
  | @array items =>
    rw [write_array]
    cases items <;> exact ⟨'[', _, rfl, rfl⟩
  | @object fields =>
    rw [write_object]
    cases fields <;> exact ⟨'\x7b', _, rfl, rfl⟩

/-- Documents whose texts start alike have one shape. -/
theorem shape_eq_of_write {i j : Json} {depth : Nat} (hi : i.Exact) (hj : j.Exact)
    (h : write depth i ++ r = write depth j ++ s) : i.shape = j.shape := by
  obtain ⟨c, rest, hc, hci⟩ := ofFirst_write hi depth
  obtain ⟨d, rest', hd, hdj⟩ := ofFirst_write hj depth
  rw [hc, hd] at h
  rw [← hci, ← hdj, List.head_eq_of_cons_eq h]

/-- A document is told by its text from all others, whatever follows. -/
theorem told_write {i : Json} (hi : i.Exact) (depth : Nat) :
    Told (write depth) Exact i := by
  -- The induction is on the document; items and fields stand deeper than the whole.
  induction hi generalizing depth with
  | null =>
    intro j r s hj hr hs h
    have hshape := shape_eq_of_write .null hj h
    cases hj with
    | null => exact ⟨rfl, List.append_cancel_left h⟩
    | _ => cases hshape
  | bool value =>
    intro j r s hj hr hs h
    have hshape := shape_eq_of_write (.bool value) hj h
    cases hj with
    | bool other =>
      cases value <;> cases other
      · exact ⟨rfl, List.append_cancel_left h⟩
      · simp [write, render] at h
      · simp [write, render] at h
      · exact ⟨rfl, List.append_cancel_left h⟩
    | _ => cases hshape
  | integer value =>
    intro j r s hj hr hs h
    have hshape := shape_eq_of_write (.integer value) hj h
    cases hj with
    | integer other =>
      obtain ⟨rfl, hrest⟩ := toString_cancel hr hs h
      exact ⟨rfl, hrest⟩
    | _ => cases hshape
  | text value =>
    intro j r s hj hr hs h
    have hshape := shape_eq_of_write (.text value) hj h
    cases hj with
    | text other =>
      obtain ⟨rfl, hrest⟩ := quote_cancel h
      exact ⟨rfl, hrest⟩
    | _ => cases hshape
  | @array items fit ih =>
    intro j r s hj hr hs h
    have hshape := shape_eq_of_write (.array fit) hj h
    cases hj with
    | @array others fit' =>
      have hitem : ∀ item ∈ items, Told (itemLine (depth + 1)) Exact item := by
        intro item hmem other r s hother hr hs h
        simp only [itemLine, List.append_assoc] at h
        exact ih item hmem (depth + 1) hother hr hs (List.append_cancel_left h)
      simp only [write_array] at h
      obtain ⟨rfl, hrest⟩ := lines_cancel (by decide) hitem fit' h
      exact ⟨rfl, hrest⟩
    | _ => cases hshape
  | @object fields fit ih =>
    intro j r s hj hr hs h
    have hshape := shape_eq_of_write (.object fit) hj h
    cases hj with
    | @object others fit' =>
      have hfield : ∀ field ∈ fields,
          Told (fieldLine (depth + 1)) (fun other => other.2.Exact) field := by
        intro field hmem other r s hother hr hs h
        simp only [fieldLine, List.append_assoc] at h
        obtain ⟨hname, hrest⟩ := quote_cancel (List.append_cancel_left h)
        simp only [List.cons_append, List.cons.injEq, true_and] at hrest
        obtain ⟨hvalue, hrest⟩ := ih field hmem (depth + 1) hother hr hs hrest
        exact ⟨Prod.ext hname hvalue, hrest⟩
      simp only [write_object] at h
      obtain ⟨rfl, hrest⟩ := lines_cancel (by decide) hfield fit' h
      exact ⟨rfl, hrest⟩
    | _ => cases hshape

/-- Documents whose numbers are integers have the same text only if they are the same. -/
theorem render_inj {i j : Json} {depth : Nat} (hi : i.Exact) (hj : j.Exact)
    (h : render depth i = render depth j) : i = j := by
  have hnothing : Stops [] := nofun
  exact (told_write hi depth hj hnothing hnothing (by rw [write, write, h])).1

end Json

/-! ## Creations -/

/-- All properties are documents whose numbers are integers. -/
def Instruction.Exact : Instruction → Prop
  | .cosmos _ properties | .entity _ properties => ∀ entry ∈ properties, entry.2.Exact
  | .manifest _ _ | .flowTime _ | .observe _ => True

namespace Creation

/-- The numbers in all properties are integers. -/
def Exact (creation : Creation) : Prop :=
  ∀ i ∈ creation.instructions, i.Exact

end Creation

open Json

/-- The numbers of a tagged document are those of its content. -/
theorem Instruction.exact_tagged {tag : String} {content : Json} (h : content.Exact) :
    (Instruction.tagged tag content).Exact := by
  exact .object (List.forall_mem_cons.2 ⟨.text _, List.forall_mem_cons.2 ⟨h, nofun⟩⟩)

/-- The document of an instruction has the numbers of its properties. -/
theorem Instruction.Exact.toJson {i : Instruction} (h : i.Exact) : i.toJson.Exact := by
  have hpair {first second : Json} (hf : first.Exact) (hs : second.Exact) :
      (Json.array [first, second]).Exact :=
    .array (List.forall_mem_cons.2 ⟨hf, List.forall_mem_cons.2 ⟨hs, nofun⟩⟩)
  cases i with
  | cosmos name properties | entity name properties =>
    exact exact_tagged (hpair (.text _) (.object h))
  | manifest place guest => exact exact_tagged (hpair (.text _) (.text _))
  | flowTime direction | observe direction => exact exact_tagged (.text _)

/-- Instructions with the same document are the same. -/
theorem Instruction.toJson_inj {i j : Instruction} (h : i.toJson = j.toJson) : i = j := by
  cases i <;> cases j <;> simp [Instruction.toJson, Instruction.tagged] at h ⊢ <;> exact h

namespace Creation

variable {c d : Creation}

/-- The document of a creation has the numbers of its properties. -/
theorem Exact.toJson (h : c.Exact) : c.toJson.Exact := by
  have hinstructions : (Json.array (c.instructions.map Instruction.toJson)).Exact := by
    refine .array fun item hitem => ?_
    obtain ⟨i, hi, rfl⟩ := List.mem_map.1 hitem
    exact (h i hi).toJson
  exact .object (List.forall_mem_cons.2 ⟨.text _, List.forall_mem_cons.2 ⟨.text _,
    List.forall_mem_cons.2 ⟨hinstructions, nofun⟩⟩⟩)

/-- Creations with the same document are the same. -/
theorem toJson_inj (h : c.toJson = d.toJson) : c = d := by
  obtain ⟨version, source, instructions⟩ := c
  obtain ⟨version', source', instructions'⟩ := d
  simp only [toJson, Json.object.injEq, List.cons.injEq, Prod.mk.injEq, true_and, Json.text.injEq,
    Json.array.injEq, and_true] at h
  obtain ⟨rfl, rfl, hinstructions⟩ := h
  rw [(List.map_inj_right fun _ _ => Instruction.toJson_inj).1 hinstructions]

/-- Two creations whose numbers are integers have the same text only if they are the same: in their
versions, their names and their instructions, one by one with all names and properties. -/
theorem text_eq_iff (hc : c.Exact) (hd : d.Exact) : c.text = d.text ↔ c = d := by
  constructor
  · intro h
    exact toJson_inj (Json.render_inj hc.toJson hd.toJson h)
  · rintro rfl
    rfl

/-- A universe with one property. -/
def oneProperty (value : Json) : Creation :=
  ⟨"1.0.0", "one.qbet", [.cosmos "U" [("k", value)]]⟩

/-- An array is told from a text that imitates its lines. -/
theorem text_eq_iff_imitated :
    (oneProperty (.array [.integer (-1), .text "]"])).Exact ∧
      (oneProperty (.text "[\n            -1,\n            \"]\"\n          ]")).Exact ∧
      (oneProperty (.array [.integer (-1), .text "]"])).text ≠
        (oneProperty (.text "[\n            -1,\n            \"]\"\n          ]")).text := by
  have hexact {value : Json} (h : value.Exact) : (oneProperty value).Exact :=
    List.forall_mem_cons.2 ⟨List.forall_mem_cons.2 ⟨h, nofun⟩, nofun⟩
  have harray : (Json.array [.integer (-1), .text "]"]).Exact :=
    .array (List.forall_mem_cons.2 ⟨.integer _, List.forall_mem_cons.2 ⟨.text _, nofun⟩⟩)
  have htext (s : String) : (Json.text s).Exact := .text s
  refine ⟨hexact harray, hexact (htext _), fun h => ?_⟩
  have hsame := (text_eq_iff (hexact harray) (hexact (htext _))).1 h
  simp [oneProperty] at hsame

end Creation

end QuantumScript
