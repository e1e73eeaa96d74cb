/-
# Reading what was written

The indented form of a value is a text of the grammar, and the text denotes the value with the
fields of its objects in order.  This is for values whose numbers are natural numbers of at most 64
bits, as they are in the outcomes of scans.  A field is found under its key before and after, if no
object repeats a key.

* `Json.Writable` : which values are meant;
* `Json.ordered` : the value with its fields in order;
* `Json.parse?_pretty` : the indented form is read as the ordered value;
* `Json.Writable.field?_ordered` : the fields of the ordered value.
-/
import SolidityScan.Json.Printer
import SolidityScan.Proofs.Json.Fields
import SolidityScan.Proofs.Json.Grammar
import SolidityScan.Proofs.Text.Numerals

namespace SolidityScan

open Text

namespace Json

/-! ## Strings -/

/-- How a character is written inside quotes: as a unit if it is a control character that has no
shorter escape, and as a character otherwise. -/
def partOf (c : Char) : StringPart :=
  if c.toNat < 0x20 ∧ c ∉ ['\x08', '\x0c', '\n', '\r', '\t'] then .unit c.toNat else .char c

/-- The digits that are written for a control character are read as its code. -/
theorem unit?_hexDigit : ∀ n < 0x20,
    JsonText.unit? '0' '0' (hexDigit (n / 16)) (hexDigit (n % 16)) = some n := by
  decide

/-- Every character is written as a spelling of one part of a string. -/
theorem spellsPart_escapeChar (c : Char) : StringPart.SpellsPart (partOf c) (escapeChar c) := by
  unfold escapeChar
  split_ifs with hquote hescape hb hf hn hr ht hcontrol
  · subst hquote
    exact .short rfl
  · subst hescape
    exact .short rfl
  · subst hb
    exact .short rfl
  · subst hf
    exact .short rfl
  · subst hn
    exact .short rfl
  · subst hr
    exact .short rfl
  · subst ht
    exact .short rfl
  · rw [partOf, if_pos ⟨hcontrol, by simp [hb, hf, hn, hr, ht]⟩]
    exact .unit (unit?_hexDigit c.toNat hcontrol)
  · rw [partOf, if_neg fun h => hcontrol h.1]
    exact .plain (by omega) hquote hescape

theorem spells_escaped (cs : List Char) :
    StringPart.Spells (cs.map partOf) (cs.flatMap escapeChar) := by
  induction cs with
  | nil => exact .nil
  | cons c cs ih => exact .cons (spellsPart_escapeChar c) ih

/-- An escaped unit that is no surrogate stands for a character on its own. -/
theorem chars?_unit {n : Nat} (h : n < 0xd800) (rest : List StringPart) :
    StringPart.chars? (.unit n :: rest) = (StringPart.chars? rest).map (Char.ofNat n :: ·) := by
  rw [StringPart.chars?.eq_def]
  exact if_pos (Or.inl h)

/-- The parts that are written for characters stand for the same characters. -/
theorem chars?_map_partOf (cs : List Char) : StringPart.chars? (cs.map partOf) = some cs := by
  induction cs with
  | nil => rfl
  | cons c cs ih =>
    rw [List.map_cons, partOf]
    split_ifs with hcontrol
    · rw [chars?_unit (by omega), ih, Char.ofNat_toNat]
      rfl
    · rw [StringPart.chars?, ih]
      rfl

theorem toList_quote (s : String) :
    (quote s).toList = '"' :: (s.toList.flatMap escapeChar ++ ['"']) :=
  String.toList_ofList

theorem string?_map_partOf (s : String) : StringPart.string? (s.toList.map partOf) = some s := by
  rw [StringPart.string?, chars?_map_partOf, Option.map_some, String.ofList_toList]

end Json

/-! ## Numbers -/

/-- No number but zero is written with a leading zero. -/
theorem eq_zero_of_head?_toDigits {n : Nat} (h : (Nat.toDigits 10 n).head? = some '0') : n = 0 := by
  induction n using Nat.strongRecOn with
  | ind n ih =>
    rcases Nat.lt_or_ge n 10 with hlt | hge
    · rw [Nat.toDigits_of_lt_base hlt] at h
      have hdigit : ∀ m < 10, m.digitChar = '0' → m = 0 := by decide
      exact hdigit n hlt (Option.some.inj h)
    · rw [Nat.toDigits_of_base_le (by decide) hge,
        List.head?_append_of_ne_nil _ Nat.toDigits_ne_nil] at h
      have hzero := ih (n / 10) (by omega) h
      omega

namespace NumberText

/-- A natural number as it is written. -/
def ofNat (n : Nat) : NumberText :=
  ⟨false, Nat.toDigits 10 n, none, none⟩

/-- The digits of a number spell it. -/
theorem spells_ofNat (n : Nat) : (ofNat n).Spells (Nat.toDigits 10 n) := by
  have hdecimal := isDecimal_toDigits n
  have hzero : ¬ ((Nat.toDigits 10 n).head? = some '0' ∧ 1 < (Nat.toDigits 10 n).length) := by
    rintro ⟨hhead, hlength⟩
    rw [eq_zero_of_head?_toDigits hhead] at hlength
    exact absurd hlength (by decide)
  have hspells : (ofNat n).Spells (minus false ++ (Nat.toDigits 10 n ++ ([] ++ []))) :=
    .mk ⟨hdecimal.nonempty, hdecimal.digits⟩ hzero .absent .absent
  rwa [minus, if_neg Bool.false_ne_true, List.nil_append, List.nil_append, List.append_nil]
    at hspells

/-- A number within a word is read back as an integer. -/
theorem value?_ofNat {n : Nat} (h : n < Json.wordSize) : (ofNat n).value? = some (.int n) := by
  have hvalue : natOfDigits (Nat.toDigits 10 n) = n :=
    Nat.ofDigitChars_eq_foldl.symm.trans (isDecimal_toDigits n).value
  simp [value?, ofNat, hvalue, h]

end NumberText

/-! ## Values -/

namespace Json

/-- The numbers in the value are natural numbers of at most 64 bits, and no object repeats a key. -/
inductive Writable : Json → Prop where
  | null : Writable .null
  | bool (b : Bool) : Writable (.bool b)
  | nat {n : Nat} (h : n < wordSize) : Writable (.nat n)
  | str (s : String) : Writable (.str s)
  | arr {items : List Json} (h : ∀ v ∈ items, Writable v) : Writable (.arr items)
  | obj {fields : List (String × Json)} (hkeys : (fields.map (·.1)).Nodup)
      (h : ∀ f ∈ fields, Writable f.2) : Writable (.obj fields)

mutual

/-- The value with the fields of all its objects in order. -/
def ordered : Json → Json
  | arr items => arr (orderedItems items)
  | obj fields => obj (orderFields (orderedFields fields))
  | v => v

/-- The items of an array with their fields in order. -/
def orderedItems : List Json → List Json
  | [] => []
  | v :: rest => v.ordered :: orderedItems rest

/-- The fields of an object, with those of their values in order. -/
def orderedFields : List (String × Json) → List (String × Json)
  | [] => []
  | (key, v) :: rest => (key, v.ordered) :: orderedFields rest

end

open JsonText (Spells Blank)

theorem blank_newLine (level : Nat) : Blank (newLine level).toList := by
  intro c hc
  rw [newLine, String.toList_ofList, List.mem_cons, List.mem_replicate] at hc
  rcases hc with rfl | ⟨-, rfl⟩ <;> rfl

theorem toList_text_nat (n : Nat) : (JsonNumber.text (.int n)).toList = Nat.toDigits 10 n := by
  have htext : JsonNumber.text (.int n) = toString n := rfl
  rw [htext, Nat.toString_eq_repr, Nat.toList_repr]

/-- The indented form of the value, at every level, denotes the value with its fields in order. -/
def IsReadBack (v : Json) : Prop :=
  ∀ level, ∃ t, Spells (.value t) (v.indented level).toList ∧ t.value? = some v.ordered

theorem isReadBack_nat {n : Nat} (h : n < wordSize) : IsReadBack (.nat n) := by
  intro level
  refine ⟨.number (.ofNat n), .number ?_, ?_⟩
  · rw [nat, indented, toList_text_nat]
    exact NumberText.spells_ofNat n
  · rw [JsonText.value?, NumberText.value?_ofNat h]
    rfl

/-- Strings are read back. -/
theorem isReadBack_str (s : String) : IsReadBack (.str s) := by
  intro level
  refine ⟨.string (s.toList.map partOf), ?_, ?_⟩
  · rw [indented, toList_quote]
    exact .string (spells_escaped s.toList)
  · rw [JsonText.value?, string?_map_partOf]
    rfl

/-- The items of an array, up to the blanks before the closing bracket. -/
theorem exists_spells_items {v : Json} {rest : List Json} (h : ∀ u ∈ v :: rest, IsReadBack u)
    (level : Nat) {closing : List Char} (hclosing : Blank closing) :
    ∃ ts, Spells (.elements ts) ((newLine level).toList ++ ((v.indented level).toList ++
        ((indentedItems level rest).toList ++ closing))) ∧
      JsonText.values? ts = some (orderedItems (v :: rest)) := by
  induction rest generalizing v with
  | nil =>
    -- the blanks before the closing bracket belong to the last item
    obtain ⟨t, hspells, hvalue⟩ := h v List.mem_cons_self level
    refine ⟨[t], .lastItem ?_, ?_⟩
    · rw [indentedItems]
      exact .element (blank_newLine level) hspells hclosing
    · simp [JsonText.values?, orderedItems, hvalue]
  | cons u rest ih =>
    obtain ⟨hv, hrest⟩ := List.forall_mem_cons.1 h
    obtain ⟨t, hspells, hvalue⟩ := hv level
    obtain ⟨ts, hitems, hvalues⟩ := ih hrest
    refine ⟨t :: ts, ?_, ?_⟩
    · have hnext :=
        Spells.nextItem (.element (blank_newLine level) hspells JsonText.blank_nil) hitems
      simpa [indentedItems] using hnext
    · simp [JsonText.values?, orderedItems, hvalue, hvalues]

/-- A key with the blanks before it and the colon and the blank after it. -/
theorem spells_field (key : String) {v : Json} {level : Nat} {t : JsonText}
    (h : Spells (.value t) (v.indented level).toList) {after : List Char} (hafter : Blank after) :
    ∃ ks cs, JsonText.SpellsKey (key.toList.map partOf) ks ∧ Spells (.element t) cs ∧
      ks ++ cs = (newLine level).toList ++ ((quote key).toList ++ (':' :: ' ' ::
        ((v.indented level).toList ++ after))) := by
  have hspace : Blank [' '] := List.forall_mem_singleton.2 rfl
  refine ⟨_, _, .mk (blank_newLine level) (spells_escaped key.toList) JsonText.blank_nil,
    .element hspace h hafter, ?_⟩
  simp [toList_quote]

/-- The fields of an object, up to the blanks before the closing brace. -/
theorem exists_spells_fields {key : String} {v : Json} {rest : List (String × Json)}
    (h : ∀ f ∈ (key, v) :: rest, IsReadBack f.2) (level : Nat) {closing : List Char}
    (hclosing : Blank closing) :
    ∃ fields,
      Spells (.members fields) ((newLine level).toList ++ ((quote key).toList ++ (':' :: ' ' ::
        ((v.indented level).toList ++ ((indentedFields level rest).toList ++ closing))))) ∧
      JsonText.fields? fields = some (orderedFields ((key, v) :: rest)) := by
  induction rest generalizing key v with
  | nil =>
    obtain ⟨t, hspells, hvalue⟩ := h _ List.mem_cons_self level
    obtain ⟨ks, cs, hkey, helement, heq⟩ := spells_field key hspells hclosing
    refine ⟨[(key.toList.map partOf, t)], ?_, ?_⟩
    · have hlast := Spells.lastField hkey helement
      rw [heq] at hlast
      simpa [indentedFields] using hlast
    · simp [JsonText.fields?, orderedFields, string?_map_partOf, hvalue]
  | cons f rest ih =>
    obtain ⟨hv, hrest⟩ := List.forall_mem_cons.1 h
    obtain ⟨t, hspells, hvalue⟩ := hv level
    obtain ⟨ks, cs, hkey, helement, heq⟩ := spells_field key hspells JsonText.blank_nil
    obtain ⟨fields, hfields, hvalues⟩ := ih hrest
    refine ⟨(key.toList.map partOf, t) :: fields, ?_, ?_⟩
    · have hnext := Spells.nextField hkey helement hfields
      rw [← List.append_assoc, heq] at hnext
      simpa [indentedFields] using hnext
    · simp [JsonText.fields?, orderedFields, string?_map_partOf, hvalue, hvalues]

/-- An array is read back if its items are. -/
theorem isReadBack_arr {items : List Json} (h : ∀ v ∈ items, IsReadBack v) :
    IsReadBack (.arr items) := by
  intro level
  cases items with
  | nil =>
    refine ⟨.array [], ?_, rfl⟩
    rw [indented]
    exact .emptyArray JsonText.blank_nil
  | cons v rest =>
    obtain ⟨ts, hspells, hvalues⟩ := exists_spells_items h (level + 1) (blank_newLine level)
    refine ⟨.array ts, ?_, ?_⟩
    · simpa [indented] using Spells.array hspells
    · rw [JsonText.value?, hvalues]
      rfl

/-- An object is read back if its values are. -/
theorem isReadBack_obj {fields : List (String × Json)} (h : ∀ f ∈ fields, IsReadBack f.2) :
    IsReadBack (.obj fields) := by
  intro level
  cases fields with
  | nil =>
    refine ⟨.object [], ?_, rfl⟩
    rw [indented]
    exact .emptyObject JsonText.blank_nil
  | cons f rest =>
    obtain ⟨read, hspells, hvalues⟩ := exists_spells_fields h (level + 1) (blank_newLine level)
    refine ⟨.object read, ?_, ?_⟩
    · simpa [indented] using Spells.object hspells
    · rw [JsonText.value?, hvalues]
      rfl

/-- **A value is read back from its indented form**, up to the order of fields. -/
theorem Writable.isReadBack {v : Json} (h : v.Writable) : IsReadBack v := by
  -- the items and fields of a writable value are writable, so the induction is on why it is
  induction h with
  | null =>
    intro level
    refine ⟨.null, ?_, rfl⟩
    rw [indented]
    exact .null
  | bool b =>
    intro level
    refine ⟨.bool b, ?_, rfl⟩
    rw [indented]
    cases b with
    | true => exact .true
    | false => exact .false
  | nat hn => exact isReadBack_nat hn
  | str s => exact isReadBack_str s
  | arr _ ih => exact isReadBack_arr ih
  | obj _ _ ih => exact isReadBack_obj ih

/-- **What is written is read back**, with the fields in order. -/
theorem parse?_pretty {v : Json} (h : v.Writable) : parse? v.pretty = some v.ordered := by
  obtain ⟨t, hspells, hvalue⟩ := h.isReadBack 0
  rw [parse?, pretty, JsonText.read?_eq_some_iff.2 hspells.element_of_value]
  exact hvalue

/-! ## Fields -/

theorem lookup_orderedFields (fields : List (String × Json)) (key : String) :
    (orderedFields fields).lookup key = (fields.lookup key).map ordered := by
  induction fields with
  | nil => rfl
  | cons f rest ih =>
    rw [orderedFields, List.lookup_cons, List.lookup_cons]
    by_cases hkey : key = f.1
    · simp [hkey]
    · rw [beq_false_of_ne hkey, ih]

theorem map_fst_orderedFields (fields : List (String × Json)) :
    (orderedFields fields).map (·.1) = fields.map (·.1) := by
  induction fields with
  | nil => rfl
  | cons f rest ih => rw [orderedFields, List.map_cons, ih, List.map_cons]

/-- The ordered value has the same fields, themselves ordered. -/
theorem Writable.field?_ordered {v : Json} (h : v.Writable) (key : String) :
    v.ordered.field? key = (v.field? key).map ordered := by
  cases h with
  | null | bool _ | nat _ | str _ | arr _ => rfl
  | @obj fields hkeys _ =>
    rw [← map_fst_orderedFields] at hkeys
    show (orderFields (orderedFields fields)).lookup key = (fields.lookup key).map ordered
    rw [lookup_orderFields hkeys, lookup_orderedFields]

end Json

end SolidityScan
