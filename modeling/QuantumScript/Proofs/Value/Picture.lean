import QuantumScript.Proofs.Value.Equality
import QuantumScript.Value.Display

/-!
# What the text of a value shows

The text of a value goes down from it through the items of arrays, and so does `Occurs`, which says
through which places one comes to an occurrence of a value and which arrays enclose it there. A
`Picture` is a text part by part, and it `Shows` a value if an array is left out, as `[...]`, exactly
where it is one of the arrays that enclose the occurrence, and is shown in full everywhere else.

There is one picture that shows a value, and the text of the value is its text (`display_shows`).
The text of a value that holds no cycle is also the one that is put together without a look at the
arrays around it (`PlainText`), however often an array occurs in it.
-/

namespace QuantumScript

/-! ## Pictures -/

/-- A text that shows a value, part by part. -/
inductive Picture
  /-- The text of a value that is no array. -/
  | plain (text : String)
  /-- An array that is left out. -/
  | ellipsis
  /-- An array in full, with its items. -/
  | array (items : List Picture)

namespace Picture

mutual

/-- The text of a picture. -/
def text : Picture → String
  | plain text => text
  | ellipsis => "[...]"
  | array items => "[" ++ ", ".intercalate (texts items) ++ "]"

/-- The texts of some pictures. -/
def texts : List Picture → List String
  | [] => []
  | item :: items => item.text :: texts items

end

/-- The texts of some pictures, one by one. -/
theorem texts_eq_map (items : List Picture) : texts items = items.map text := by
  induction items with
  | nil => rfl
  | cons item items ih => rw [texts, ih, List.map_cons]

/-- The part of a picture that one comes to through items at some places. -/
def part? : Picture → List Nat → Option Picture
  | picture, [] => some picture
  | array items, i :: places => items[i]?.bind fun item => item.part? places
  | _, _ :: _ => none

end Picture

namespace Store

variable {store : Store} {path enclosing : List ArrayId} {nested : Bool} {v w : Value}
  {places : List Nat} {id : ArrayId}

/-- The text of a value that is no array. -/
def plainText? (store : Store) (nested : Bool) : Value → Option String
  | .number n => some (Number.display n)
  | .text s => some (if nested then Text.quoted s else s)
  | .bool b => some (if b then "true" else "false")
  | .null => some "null"
  | .array _ => none
  | .function id => some ("<function " ++ ((store.closure? id).map Closure.name).getD "" ++ ">")
  | .native f => some f.display
  | .object id => some (((store.object? id).map Object.display).getD "")

/-- Going down from a value through items at some places, one enters some arrays and comes to an
occurrence of a value. -/
inductive Occurs (store : Store) : Value → List Nat → List ArrayId → Value → Prop
  /-- A value occurs at no distance from itself. -/
  | here (v : Value) : Occurs store v [] [] v
  /-- What occurs in an item of an array occurs in the array, which encloses it. -/
  | item {id : ArrayId} {i : Nat} {item : Value} {places : List Nat} {enclosing : List ArrayId}
    {w : Value} (place : (store.items id)[i]? = some item)
    (inside : Occurs store item places enclosing w) :
    Occurs store (.array id) (i :: places) (id :: enclosing) w

/-- Arrays that are entered one after the other inside the arrays of a path are none of these, and
none is entered twice. -/
def EnteredOnce (path enclosing : List ArrayId) : Prop :=
  enclosing.Nodup ∧ ∀ id ∈ enclosing, id ∉ path

/-- A picture shows a value that stands inside the arrays of a path. -/
structure Shows (store : Store) (path : List ArrayId) (nested : Bool) (v : Value)
    (picture : Picture) : Prop where
  /-- Its parts are the occurrences in arrays that are all shown in full, which are those in arrays
  of which none is entered twice. -/
  present : ∀ places, (picture.part? places).isSome ↔
    ∃ enclosing w, store.Occurs v places enclosing w ∧ EnteredOnce path enclosing
  /-- An array is left out exactly where it is one of the arrays around the occurrence. -/
  left_out : ∀ places enclosing id part, store.Occurs v places enclosing (.array id) →
    picture.part? places = some part → (part = .ellipsis ↔ id ∈ enclosing ∨ id ∈ path)
  /-- Everywhere else it is shown with all its items. -/
  in_full : ∀ places enclosing id part, store.Occurs v places enclosing (.array id) →
    picture.part? places = some part →
      ((∃ items, part = .array items ∧ items.length = (store.items id).size) ↔
        ¬ (id ∈ enclosing ∨ id ∈ path))
  /-- Other values are shown by their texts, which are quoted inside of arrays. -/
  plain : ∀ places enclosing w part text, store.Occurs v places enclosing w →
    picture.part? places = some part →
      store.plainText? (nested || !places.isEmpty) w = some text → part = .plain text

/-- The texts of values, put together without a look at the arrays around them. -/
inductive PlainText (store : Store) : Bool → Value → String → Prop
  /-- A value that is no array has its text. -/
  | plain {nested : Bool} {v : Value} {text : String}
    (shown : store.plainText? nested v = some text) : PlainText store nested v text
  /-- An array has the texts of its items in brackets. -/
  | array {nested : Bool} {id : ArrayId} {parts : List String}
    (length : parts.length = (store.items id).size)
    (each : ∀ (i : Nat) (item : Value) (part : String), (store.items id)[i]? = some item →
      parts[i]? = some part → PlainText store true item part) :
    PlainText store nested (.array id) ("[" ++ ", ".intercalate parts ++ "]")

/-! ## The text of one value -/

/-- Every value is an array or has a text of its own. -/
theorem array_or_plainText? (store : Store) (nested : Bool) (v : Value) :
    (∃ id, v = .array id) ∨ ∃ text, store.plainText? nested v = some text := by
  cases v with
  | array id => exact .inl ⟨id, rfl⟩
  | _ => exact .inr ⟨_, rfl⟩

/-- What holds of values that are no arrays, of arrays on the path, and of an array off the path if
it holds of its items inside it, holds of all values inside all paths. -/
theorem walk_induction (store : Store) {motive : List ArrayId → Bool → Value → Prop}
    (plain : ∀ path nested v text, store.plainText? nested v = some text → motive path nested v)
    (again : ∀ path nested id, id ∈ path → motive path nested (.array id))
    (items : ∀ path nested id, id ∉ path →
      (∀ item ∈ (store.items id).toList, motive (id :: path) true item) →
        motive path nested (.array id))
    (path : List ArrayId) (nested : Bool) (v : Value) : motive path nested v := by
  induction hcount : store.unvisited path using Nat.strongRecOn generalizing path nested v with
  | ind count ih =>
    subst hcount
    rcases store.array_or_plainText? nested v with ⟨id, rfl⟩ | ⟨text, htext⟩
    · by_cases hp : id ∈ path
      · exact again path nested id hp
      · refine items path nested id hp fun item hitem => ?_
        have hfewer := unvisited_cons_lt (lt_size_of_mem_items hitem) hp
        exact ih _ hfewer (id :: path) true item rfl
    · exact plain path nested v text htext

/-- A value that is no array is written by its text, whatever arrays are around it. -/
theorem render_of_plainText? {text : String} (h : store.plainText? nested v = some text)
    (path : List ArrayId) : store.render path nested v = text := by
  cases v with
  | array id => cases h
  | _ =>
    rw [render]
    exact Option.some.inj h

/-- An array of the store has the items that stand there. -/
theorem items_of_lt (hid : id.index < store.arrays.size) :
    store.items id = store.arrays[id.index] := by
  rw [items, Array.getElem?_eq_getElem hid, Option.getD_some]

/-- What is no array of the store has no items. -/
theorem items_of_not_lt (hid : ¬ id.index < store.arrays.size) : store.items id = #[] := by
  rw [items, Array.getElem?_eq_none (Nat.le_of_not_lt hid), Option.getD_none]

/-- An array on the path is written as `[...]`. -/
theorem render_array_of_mem (hp : id ∈ path) : store.render path nested (.array id) = "[...]" := by
  rw [render, dif_pos hp]

/-- An array off the path is written with the texts of its items. -/
theorem render_array (hp : id ∉ path) :
    store.render path nested (.array id) =
      "[" ++ ", ".intercalate ((store.items id).toList.map (store.render (id :: path) true)) ++
        "]" := by
  rw [render, dif_neg hp]
  by_cases hid : id.index < store.arrays.size
  · rw [dif_pos hid, items_of_lt hid]
  · rw [dif_neg hid, items_of_not_lt hid]
    rfl

/-! ## The picture of a value -/

/-- The picture of a value inside the arrays of a path. -/
def picture (store : Store) (path : List ArrayId) (nested : Bool) (v : Value) : Picture :=
  match v with
  | .array id =>
    if hp : id ∈ path then .ellipsis
    else if hid : id.index < store.arrays.size then
      .array (store.arrays[id.index].toList.map fun item => store.picture (id :: path) true item)
    else .array []
  | v => .plain (store.render path nested v)
termination_by store.unvisited path
decreasing_by exact unvisited_cons_lt hid hp

/-- The picture of a value that is no array is its text. -/
theorem picture_of_plainText? {text : String} (h : store.plainText? nested v = some text)
    (path : List ArrayId) : store.picture path nested v = .plain text := by
  have hrender := render_of_plainText? h path
  cases v with
  | array id => cases h
  | _ =>
    rw [picture, hrender]
    nofun

/-- The picture of an array on the path leaves it out. -/
theorem picture_array_of_mem (hp : id ∈ path) :
    store.picture path nested (.array id) = .ellipsis := by
  rw [picture, dif_pos hp]

/-- The picture of an array off the path has the pictures of its items. -/
theorem picture_array (hp : id ∉ path) :
    store.picture path nested (.array id) =
      .array ((store.items id).toList.map (store.picture (id :: path) true)) := by
  rw [picture, dif_neg hp]
  by_cases hid : id.index < store.arrays.size
  · rw [dif_pos hid, items_of_lt hid]
  · rw [dif_neg hid, items_of_not_lt hid]
    rfl

/-- The text of the picture of a value is the text of the value. -/
theorem text_picture (store : Store) (path : List ArrayId) (nested : Bool) (v : Value) :
    (store.picture path nested v).text = store.render path nested v := by
  induction path, nested, v using store.walk_induction with
  | plain path nested v text htext =>
    rw [picture_of_plainText? htext, render_of_plainText? htext, Picture.text]
  | again path nested id hp => rw [picture_array_of_mem hp, render_array_of_mem hp, Picture.text]
  | items path nested id hp ih =>
    have hparts : (store.items id).toList.map (Picture.text ∘ store.picture (id :: path) true) =
        (store.items id).toList.map (store.render (id :: path) true) := List.map_congr_left ih
    rw [picture_array hp, render_array hp, Picture.text, Picture.texts_eq_map, List.map_map, hparts]

/-! ## What the picture shows -/

/-- Inside the arrays of a path, an array and then others are entered once if the array is off the
path and the others are entered once inside it. -/
theorem enteredOnce_cons :
    EnteredOnce path (id :: enclosing) ↔ id ∉ path ∧ EnteredOnce (id :: path) enclosing := by
  rw [EnteredOnce, EnteredOnce, List.nodup_cons, List.forall_mem_cons]
  simp only [List.mem_cons, not_or]
  constructor
  · rintro ⟨⟨hid, hnodup⟩, hoff, hrest⟩
    exact ⟨hoff, hnodup, fun c hc => ⟨fun h => hid (h ▸ hc), hrest c hc⟩⟩
  · rintro ⟨hoff, hnodup, hrest⟩
    exact ⟨⟨fun h => (hrest id h).1 rfl, hnodup⟩, hoff, fun c hc => (hrest c hc).2⟩

/-- One part of the picture of an array off the path lies in the picture of an item. -/
theorem part?_picture_array (hp : id ∉ path) (i : Nat) (places : List Nat) :
    (store.picture path nested (.array id)).part? (i :: places) =
      (store.items id)[i]?.bind fun item =>
        (store.picture (id :: path) true item).part? places := by
  rw [picture_array hp, Picture.part?, List.getElem?_map, Array.getElem?_toList]
  cases (store.items id)[i]? <;> rfl

/-- The part of a picture at an occurrence is the picture of the value that occurs there, inside the
arrays that enclose it. -/
theorem Occurs.part?_picture (h : store.Occurs v places enclosing w)
    (honce : EnteredOnce path enclosing) :
    (store.picture path nested v).part? places =
      some (store.picture (enclosing.reverse ++ path) (nested || !places.isEmpty) w) := by
  induction h generalizing path nested with
  | here v =>
    rw [Picture.part?, List.isEmpty_nil, Bool.not_true, Bool.or_false]
    rfl
  | @item id i item places enclosing w place inside ih =>
    obtain ⟨hp, hinside⟩ := enteredOnce_cons.1 honce
    have hpath : (id :: enclosing).reverse ++ path = enclosing.reverse ++ (id :: path) := by
      rw [List.reverse_cons, List.append_assoc, List.singleton_append]
    rw [part?_picture_array hp, place, Option.bind_some, ih hinside, hpath, List.isEmpty_cons,
      Bool.not_false, Bool.or_true, Bool.true_or]

/-- A picture has parts only at occurrences in arrays of which none is entered twice. -/
theorem exists_occurs_of_part?_picture {part : Picture}
    (h : (store.picture path nested v).part? places = some part) :
    ∃ enclosing w, store.Occurs v places enclosing w ∧ EnteredOnce path enclosing := by
  induction places generalizing path nested v with
  | nil => exact ⟨[], v, .here v, List.nodup_nil, nofun⟩
  | cons i places ih =>
    rcases store.array_or_plainText? nested v with ⟨id, rfl⟩ | ⟨text, htext⟩
    · by_cases hp : id ∈ path
      · rw [picture_array_of_mem hp] at h
        cases h
      · rw [part?_picture_array hp] at h
        obtain ⟨item, hitem, hpart⟩ := Option.bind_eq_some_iff.1 h
        obtain ⟨enclosing, w, hoccurs, honce⟩ := ih hpart
        exact ⟨id :: enclosing, w, .item hitem hoccurs, enteredOnce_cons.2 ⟨hp, honce⟩⟩
    · rw [picture_of_plainText? htext] at h
      cases h

/-- Through some places one comes to one occurrence only. -/
theorem Occurs.unique {others : List ArrayId} {u : Value}
    (h : store.Occurs v places enclosing w) (h' : store.Occurs v places others u) :
    others = enclosing ∧ u = w := by
  induction h generalizing others with
  | here v =>
    cases h'
    exact ⟨rfl, rfl⟩
  | item place inside ih =>
    cases h' with
    | item place' inside' =>
      obtain rfl := Option.some.inj (place.symm.trans place')
      obtain ⟨rfl, rfl⟩ := ih inside'
      exact ⟨rfl, rfl⟩

/-- A part of the picture of a value is the picture of the value that occurs there. -/
theorem Occurs.eq_picture {part : Picture} (h : store.Occurs v places enclosing w)
    (hpart : (store.picture path nested v).part? places = some part) :
    part = store.picture (enclosing.reverse ++ path) (nested || !places.isEmpty) w := by
  obtain ⟨others, u, hoccurs, honce⟩ := exists_occurs_of_part?_picture hpart
  obtain ⟨rfl, rfl⟩ := h.unique hoccurs
  rw [hoccurs.part?_picture honce] at hpart
  exact (Option.some.inj hpart).symm

/-- The picture of a value shows it. -/
theorem shows_picture (store : Store) (path : List ArrayId) (nested : Bool) (v : Value) :
    store.Shows path nested v (store.picture path nested v) := by
  have haround (enclosing : List ArrayId) (id : ArrayId) :
      id ∈ enclosing.reverse ++ path ↔ id ∈ enclosing ∨ id ∈ path := by
    rw [List.mem_append, List.mem_reverse]
  constructor
  · intro places
    rw [Option.isSome_iff_exists]
    constructor
    · rintro ⟨part, hpart⟩
      exact exists_occurs_of_part?_picture hpart
    · rintro ⟨enclosing, w, hoccurs, honce⟩
      exact ⟨_, hoccurs.part?_picture honce⟩
  · intro places enclosing id part hoccurs hpart
    rw [hoccurs.eq_picture hpart, ← haround]
    by_cases hp : id ∈ enclosing.reverse ++ path
    · rw [picture_array_of_mem hp]
      exact ⟨fun _ => hp, fun _ => rfl⟩
    · rw [picture_array hp]
      exact ⟨nofun, fun h => absurd h hp⟩
  · intro places enclosing id part hoccurs hpart
    rw [hoccurs.eq_picture hpart, ← haround]
    by_cases hp : id ∈ enclosing.reverse ++ path
    · rw [picture_array_of_mem hp]
      exact ⟨nofun, fun h => absurd hp h⟩
    · rw [picture_array hp]
      refine ⟨fun _ => hp, fun _ => ⟨_, rfl, ?_⟩⟩
      rw [List.length_map, Array.length_toList]
  · intro places enclosing w part text hoccurs hpart htext
    rw [hoccurs.eq_picture hpart, picture_of_plainText? htext]

/-- What shows an array off the path shows each item by a part of its own. -/
theorem Shows.item {items : List Picture} {i : Nat} {item : Value} {part : Picture}
    (h : store.Shows path nested (.array id) (.array items)) (hp : id ∉ path)
    (hitem : (store.items id)[i]? = some item) (hpart : items[i]? = some part) :
    store.Shows (id :: path) true item part := by
  have hdown (places : List Nat) :
      (Picture.array items).part? (i :: places) = part.part? places := by
    rw [Picture.part?, hpart, Option.bind_some]
  have haround (enclosing : List ArrayId) (c : ArrayId) :
      c ∈ id :: enclosing ∨ c ∈ path ↔ c ∈ enclosing ∨ c ∈ id :: path := by
    rw [List.mem_cons, List.mem_cons, or_assoc, or_left_comm]
  constructor
  · intro places
    rw [← hdown, h.present]
    constructor
    · rintro ⟨_, w, hoccurs, honce⟩
      cases hoccurs with
      | item place inside =>
        obtain rfl := Option.some.inj (hitem.symm.trans place)
        exact ⟨_, w, inside, (enteredOnce_cons.1 honce).2⟩
    · rintro ⟨enclosing, w, hoccurs, honce⟩
      exact ⟨id :: enclosing, w, .item hitem hoccurs, enteredOnce_cons.2 ⟨hp, honce⟩⟩
  · intro places enclosing c inner hoccurs hinner
    rw [← haround]
    exact h.left_out _ _ _ _ (.item hitem hoccurs) ((hdown places).trans hinner)
  · intro places enclosing c inner hoccurs hinner
    rw [← haround]
    exact h.in_full _ _ _ _ (.item hitem hoccurs) ((hdown places).trans hinner)
  · intro places enclosing w inner text hoccurs hinner htext
    refine h.plain _ _ _ _ _ (.item hitem hoccurs) ((hdown places).trans hinner) ?_
    rwa [List.isEmpty_cons, Bool.not_false, Bool.or_true]

/-- What shows a value is its picture. -/
theorem Shows.eq_picture {shown : Picture} (h : store.Shows path nested v shown) :
    shown = store.picture path nested v := by
  induction path, nested, v using store.walk_induction generalizing shown with
  | plain path nested v text htext =>
    have hplain : store.plainText? (nested || !List.isEmpty ([] : List Nat)) v = some text := by
      rwa [List.isEmpty_nil, Bool.not_true, Bool.or_false]
    rw [picture_of_plainText? htext]
    exact h.plain [] [] v shown text (.here v) rfl hplain
  | again path nested id hp =>
    rw [picture_array_of_mem hp]
    exact (h.left_out [] [] id shown (.here _) rfl).2 (.inr hp)
  | items path nested id hp ih =>
    have hoff : ¬ (id ∈ [] ∨ id ∈ path) := by
      rintro (hnil | hmem)
      · cases hnil
      · exact hp hmem
    obtain ⟨items, rfl, hlength⟩ := (h.in_full [] [] id shown (.here _) rfl).2 hoff
    rw [picture_array hp]
    congr 1
    apply List.ext_getElem
    · rw [hlength, List.length_map, Array.length_toList]
    · intro i hi hi'
      rw [List.length_map, Array.length_toList] at hi'
      have hitem : (store.items id)[i]? = some (store.items id)[i] := Array.getElem?_eq_getElem hi'
      have hshows := h.item hp hitem (List.getElem?_eq_getElem hi)
      rw [List.getElem_map, Array.getElem_toList]
      exact ih _ (mem_items_of_getElem? hitem) hshows

/-! ## Values that hold no cycle -/

/-- The text of a value that holds no cycle, inside arrays that are above it, is put together without
a look at these arrays. -/
theorem plainText_render (hfree : store.CycleFree v) (habove : ∀ c ∈ path, store.Above c v) :
    store.PlainText nested v (store.render path nested v) := by
  induction path, nested, v using store.walk_induction with
  | plain path nested v text htext =>
    rw [render_of_plainText? htext]
    exact .plain htext
  | again path nested id hp => exact absurd (habove id hp).holds hfree.not_self
  | items path nested id hp ih =>
    rw [render_array hp]
    apply PlainText.array
    · rw [List.length_map, Array.length_toList]
    · intro i item part hitem hpart
      have hmem := mem_items_of_getElem? hitem
      have hrendered : part = store.render (id :: path) true item := by
        rw [List.getElem?_map, Array.getElem?_toList, hitem, Option.map_some] at hpart
        exact (Option.some.inj hpart).symm
      rw [hrendered]
      refine ih item hmem (hfree.item hmem) fun c hc => ?_
      rcases List.mem_cons.1 hc with rfl | hc
      · exact ⟨c, .refl, hmem⟩
      · exact (habove c hc).item hmem

/-- A value has one text at most that is put together so. -/
theorem PlainText.unique {text other : String} (h : store.PlainText nested v text)
    (h' : store.PlainText nested v other) : other = text := by
  induction h generalizing other with
  | plain shown =>
    cases h' with
    | plain shown' => exact Option.some.inj (shown'.symm.trans shown)
    | array => cases shown
  | @array nested id parts length each ih =>
    cases h' with
    | plain shown => cases shown
    | @array _ _ others length' each' =>
      suffices hparts : others = parts by rw [hparts]
      apply List.ext_getElem
      · rw [length', length]
      · intro i hi hi'
        have hsize : i < (store.items id).size := by omega
        exact ih i _ _ (Array.getElem?_eq_getElem hsize) (List.getElem?_eq_getElem hi')
          (each' i _ _ (Array.getElem?_eq_getElem hsize) (List.getElem?_eq_getElem hi))

/-! ## The theorem -/

/-- One picture shows a value, and the text of the value is its text. -/
theorem exists_shows (store : Store) (nested : Bool) (v : Value) :
    ∃ shown : Picture, shown.text = store.render [] nested v ∧
      ∀ other, store.Shows [] nested v other ↔ other = shown := by
  refine ⟨store.picture [] nested v, store.text_picture [] nested v, fun other => ⟨?_, ?_⟩⟩
  · exact Shows.eq_picture
  · rintro rfl
    exact store.shows_picture [] nested v

/-- A value that holds no cycle has one text that is put together without a look at the arrays
around its parts, which is its text. -/
theorem plainText_iff (hfree : store.CycleFree v) (nested : Bool) (text : String) :
    store.PlainText nested v text ↔ text = store.render [] nested v := by
  have hplain : store.PlainText nested v (store.render [] nested v) :=
    plainText_render hfree fun _ hc => absurd hc List.not_mem_nil
  constructor
  · exact hplain.unique
  · rintro rfl
    exact hplain

/-- The text of a value, with texts quoted or not, is that of the one picture that shows it: an array
is left out exactly where it encloses itself. If the value holds no cycle, its text is the one that
is put together without a look at the arrays around. -/
theorem display_shows (store : Store) (v : Value) :
    (∃ shown : Picture, shown.text = store.display v ∧
      ∀ other, store.Shows [] false v other ↔ other = shown) ∧
    (∃ shown : Picture, shown.text = store.inspect v ∧
      ∀ other, store.Shows [] true v other ↔ other = shown) ∧
    (store.CycleFree v →
      (∀ text, store.PlainText false v text ↔ text = store.display v) ∧
        ∀ text, store.PlainText true v text ↔ text = store.inspect v) :=
  ⟨store.exists_shows false v, store.exists_shows true v, fun hfree =>
    ⟨plainText_iff hfree false, plainText_iff hfree true⟩⟩

/-- An empty array, an array with it twice as its items, and an array with both of these. -/
def sharedArrays : Store :=
  { initial with arrays := #[#[], #[.array ⟨0⟩, .array ⟨0⟩], #[.array ⟨1⟩, .array ⟨0⟩]] }

/-- The empty array is written in full all three times. -/
theorem display_shows_shared :
    sharedArrays.CycleFree (.array ⟨2⟩) ∧
      sharedArrays.display (.array ⟨2⟩) = "[[[], []], []]" ∧
      sharedArrays.PlainText false (.array ⟨2⟩) "[[[], []], []]" := by
  have hearlier : ∀ a b, sharedArrays.Holds a b → b.index < a.index := by
    rintro ⟨_ | _ | _ | a⟩ b hab <;> simp [Holds, items, sharedArrays] at hab <;> grind
  have hfree : sharedArrays.CycleFree (.array ⟨2⟩) := cycleFree_of_earlier hearlier
  have htext : sharedArrays.display (.array ⟨2⟩) = "[[[], []], []]" := by decide +kernel
  exact ⟨hfree, htext, (((display_shows sharedArrays _).2.2 hfree).1 _).2 htext.symm⟩

end Store

end QuantumScript
