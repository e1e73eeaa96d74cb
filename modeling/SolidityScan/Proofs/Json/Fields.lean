/-
# The order of fields

Objects and nodes keep their fields in lists, in ascending order of names and so without repetition.
The order is kept by inserting each field where it belongs.  A value that was read from a text has
it in every object, however the text arranges the fields and however often it repeats a key.

* `Json.insertField_ascending`, `Json.orderFields_ascending` : inserting keeps the order;
* `Json.mem_orderFields_iff`, `Json.lookup_orderFields` : ordering keeps the fields, if no name is
  repeated;
* `Json.ordered_of_parse?` : what is read from a text is in order throughout.
-/
import Mathlib.Data.List.Basic
import Mathlib.Data.String.Basic
import SolidityScan.Json.Reader

namespace SolidityScan

namespace Json

variable {α : Type}

/-- The names of the fields ascend. -/
def Ascending (fields : List (String × α)) : Prop :=
  fields.Pairwise fun f g => f.1 < g.1

/-! ## Inserting -/

/-- An insertion brings in nothing but the new field. -/
theorem mem_insertField {key : String} {value : α} {fields : List (String × α)} {p : String × α}
    (h : p ∈ insertField key value fields) : p = (key, value) ∨ p ∈ fields := by
  induction fields with
  | nil => exact Or.inl (List.mem_singleton.1 h)
  | cons q rest ih =>
    unfold insertField at h
    split_ifs at h
    · exact List.mem_cons.1 h
    · rcases List.mem_cons.1 h with h | h
      · exact Or.inl h
      · exact Or.inr (List.mem_cons_of_mem q h)
    · rcases List.mem_cons.1 h with h | h
      · exact Or.inr (h ▸ List.mem_cons_self)
      · exact (ih h).imp_right (List.mem_cons_of_mem q)

/-- Fields stay in order when one is inserted. -/
theorem insertField_ascending {fields : List (String × α)} (h : Ascending fields) (key : String)
    (value : α) : Ascending (insertField key value fields) := by
  induction fields with
  | nil => exact List.pairwise_singleton _ _
  | cons q rest ih =>
    obtain ⟨hq, hrest⟩ := List.pairwise_cons.1 h
    unfold insertField
    split_ifs with hlt heq
    · refine List.pairwise_cons.2 ⟨?_, h⟩
      intro p hp
      rcases List.mem_cons.1 hp with rfl | hp
      · exact hlt
      · exact lt_trans hlt (hq p hp)
    · rw [heq]
      exact List.pairwise_cons.2 ⟨hq, hrest⟩
    · refine List.pairwise_cons.2 ⟨?_, ih hrest⟩
      intro p hp
      rcases mem_insertField hp with rfl | hp
      · exact lt_of_le_of_ne (not_lt.1 hlt) (Ne.symm heq)
      · exact hq p hp

/-- The order and where the fields come from, after any number of insertions. -/
theorem insertFields_spec (fields : List (String × α)) {done : List (String × α)}
    (h : Ascending done) :
    Ascending (fields.foldl (fun done f => insertField f.1 f.2 done) done) ∧
      ∀ p ∈ fields.foldl (fun done f => insertField f.1 f.2 done) done, p ∈ done ∨ p ∈ fields := by
  induction fields generalizing done with
  | nil => exact ⟨h, fun p hp => Or.inl hp⟩
  | cons f rest ih =>
    obtain ⟨hascend, hmem⟩ := ih (insertField_ascending h f.1 f.2)
    refine ⟨hascend, fun p hp => ?_⟩
    rcases hmem p hp with hp | hp
    · rcases mem_insertField hp with rfl | hp
      · exact Or.inr List.mem_cons_self
      · exact Or.inl hp
    · exact Or.inr (List.mem_cons_of_mem f hp)

theorem orderFields_ascending (fields : List (String × α)) : Ascending (orderFields fields) :=
  (insertFields_spec fields List.Pairwise.nil).1

theorem mem_of_mem_orderFields {fields : List (String × α)} {p : String × α}
    (h : p ∈ orderFields fields) : p ∈ fields := by
  rcases (insertFields_spec fields List.Pairwise.nil).2 p h with hnil | hp
  · cases hnil
  · exact hp

theorem mem_insertField_self (key : String) (value : α) (fields : List (String × α)) :
    (key, value) ∈ insertField key value fields := by
  induction fields with
  | nil => exact List.mem_cons_self
  | cons q rest ih =>
    unfold insertField
    split_ifs
    · exact List.mem_cons_self
    · exact List.mem_cons_self
    · exact List.mem_cons_of_mem q ih

/-- An insertion drops no field with another name. -/
theorem mem_insertField_of_ne {key : String} {fields : List (String × α)} {p : String × α}
    (hp : p ∈ fields) (hne : p.1 ≠ key) (value : α) : p ∈ insertField key value fields := by
  induction fields with
  | nil => cases hp
  | cons q rest ih =>
    unfold insertField
    split_ifs with hlt heq
    · exact List.mem_cons_of_mem _ hp
    · rcases List.mem_cons.1 hp with rfl | hp
      · exact absurd heq.symm hne
      · exact List.mem_cons_of_mem _ hp
    · rcases List.mem_cons.1 hp with rfl | hp
      · exact List.mem_cons_self
      · exact List.mem_cons_of_mem q (ih hp)

/-- If no name is repeated, all fields are kept. -/
theorem mem_insertFields {fields done : List (String × α)} {p : String × α}
    (hnodup : (fields.map (·.1)).Nodup) (hp : p ∈ fields ∨ p ∈ done ∧ p.1 ∉ fields.map (·.1)) :
    p ∈ fields.foldl (fun done f => insertField f.1 f.2 done) done := by
  induction fields generalizing done with
  | nil => exact (hp.resolve_left List.not_mem_nil).1
  | cons f rest ih =>
    rw [List.map_cons, List.nodup_cons] at hnodup
    refine ih hnodup.2 ?_
    rcases hp with hp | ⟨hp, hnew⟩
    · rcases List.mem_cons.1 hp with rfl | hp
      · exact Or.inr ⟨mem_insertField_self p.1 p.2 done, hnodup.1⟩
      · exact Or.inl hp
    · rw [List.map_cons, List.mem_cons, not_or] at hnew
      exact Or.inr ⟨mem_insertField_of_ne hp hnew.1 f.2, hnew.2⟩

/-- Fields with different names are all kept. -/
theorem mem_orderFields_iff {fields : List (String × α)} {p : String × α}
    (hnodup : (fields.map (·.1)).Nodup) : p ∈ orderFields fields ↔ p ∈ fields :=
  ⟨mem_of_mem_orderFields, fun hp => mem_insertFields hnodup (Or.inl hp)⟩

/-! ## Looking up -/

theorem Ascending.nodup {fields : List (String × α)} (h : Ascending fields) :
    (fields.map (·.1)).Nodup :=
  (List.pairwise_map.2 h).imp fun hlt => hlt.ne

/-- If no name is repeated, every field is found under its name. -/
theorem lookup_eq_some_iff_mem {fields : List (String × α)} (h : (fields.map (·.1)).Nodup)
    {key : String} {value : α} : fields.lookup key = some value ↔ (key, value) ∈ fields := by
  constructor
  · intro hlookup
    obtain ⟨before, after, rfl, -⟩ := List.lookup_eq_some_iff.1 hlookup
    exact List.mem_append_right before List.mem_cons_self
  · intro hmem
    obtain ⟨before, after, rfl⟩ := List.append_of_mem hmem
    refine List.lookup_eq_some_iff.2 ⟨before, after, rfl, fun p hp => ?_⟩
    rw [List.map_append, List.map_cons] at h
    have hne := (List.nodup_append.1 h).2.2 p.1 (List.mem_map_of_mem hp) key List.mem_cons_self
    exact bne_iff_ne.2 hne.symm

/-- Ordering does not change what is found under a name, if no name is repeated. -/
theorem lookup_orderFields {fields : List (String × α)} (h : (fields.map (·.1)).Nodup)
    (key : String) : (orderFields fields).lookup key = fields.lookup key := by
  ext value
  rw [lookup_eq_some_iff_mem (orderFields_ascending fields).nodup, lookup_eq_some_iff_mem h,
    mem_orderFields_iff h]

/-! ## Values that were read -/

/-- In every object of the value the keys ascend. -/
inductive Ordered : Json → Prop where
  | null : Ordered .null
  | bool (b : Bool) : Ordered (.bool b)
  | num (n : JsonNumber) : Ordered (.num n)
  | str (s : String) : Ordered (.str s)
  | arr {items : List Json} : (∀ v ∈ items, Ordered v) → Ordered (.arr items)
  | obj {fields : List (String × Json)} : Ascending fields → (∀ f ∈ fields, Ordered f.2) →
      Ordered (.obj fields)

end Json

namespace JsonText

open Json (Ordered)

-- The recursion is that of the denotation; only an object rearranges what it has.
mutual

/-- The value of a text has its fields in order, at every level. -/
theorem ordered_of_value? : ∀ (t : JsonText) {v : Json}, t.value? = some v → Ordered v
  | null, _, h => by
    cases h
    exact .null
  | bool b, _, h => by
    cases h
    exact .bool b
  | number n, _, h => by
    obtain ⟨x, -, rfl⟩ := Option.map_eq_some_iff.1 h
    exact .num x
  | string s, _, h => by
    obtain ⟨text, -, rfl⟩ := Option.map_eq_some_iff.1 h
    exact .str text
  | array items, _, h => by
    obtain ⟨values, hvalues, rfl⟩ := Option.map_eq_some_iff.1 h
    exact .arr (ordered_of_values? items hvalues)
  | object fields, _, h => by
    obtain ⟨read, hread, rfl⟩ := Option.map_eq_some_iff.1 h
    refine .obj (Json.orderFields_ascending read) fun f hf => ?_
    exact ordered_of_fields? fields hread f (Json.mem_of_mem_orderFields hf)

theorem ordered_of_values? : ∀ (items : List JsonText) {values : List Json},
    values? items = some values → ∀ v ∈ values, Ordered v
  | [], _, h => by
    cases h
    intro v hv
    cases hv
  | item :: rest, values, h => by
    simp only [values?, Option.bind_eq_bind, Option.bind_eq_some_iff] at h
    obtain ⟨v, hv, more, hmore, heq⟩ := h
    cases heq
    exact List.forall_mem_cons.2 ⟨ordered_of_value? item hv, ordered_of_values? rest hmore⟩

theorem ordered_of_fields? : ∀ (fields : List (List StringPart × JsonText))
    {read : List (String × Json)}, fields? fields = some read → ∀ f ∈ read, Ordered f.2
  | [], _, h => by
    cases h
    intro f hf
    cases hf
  | (key, item) :: rest, read, h => by
    simp only [fields?, Option.bind_eq_bind, Option.bind_eq_some_iff] at h
    obtain ⟨name, hname, v, hv, more, hmore, heq⟩ := h
    cases heq
    exact List.forall_mem_cons.2 ⟨ordered_of_value? item hv, ordered_of_fields? rest hmore⟩

end

end JsonText

/-- What is read from a text has the keys of every object in ascending order. -/
theorem Json.ordered_of_parse? {text : String} {v : Json} (h : Json.parse? text = some v) :
    v.Ordered := by
  obtain ⟨t, -, ht⟩ := Option.bind_eq_some_iff.1 h
  exact JsonText.ordered_of_value? t ht

end SolidityScan
