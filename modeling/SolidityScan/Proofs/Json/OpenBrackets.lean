/-
# Brackets that are open at the same time

The pass that guards the reader against deep texts knows nothing of the grammar, and reads bytes.
On a JSON text it finds exactly what the grammar says: the largest number of arrays and objects that
are open at the same time.  Whatever strings and keys hold is passed over, and so are the bytes of a
character outside ASCII.

* `JsonText.OpensWithin` : how many brackets are open at some place of a written value;
* `JsonText.opensWithin_depth`, `JsonText.OpensWithin.le_depth` : the depth is the largest such
  number;
* `JsonText.Nesting.foldl_stepByte` : the pass over the bytes.
-/
import Mathlib.Order.Bounds.Defs
import SolidityScan.Proofs.Json.Nesting
import SolidityScan.Proofs.Text.Utf8

namespace SolidityScan.JsonText

/-! ## Open brackets -/

/-- At some place of the written value, `n` of its arrays and objects are open. -/
inductive OpensWithin : JsonText → Nat → Prop where
  | outside (t : JsonText) : OpensWithin t 0
  | array (items : List JsonText) : OpensWithin (.array items) 1
  | object (fields : List (List StringPart × JsonText)) : OpensWithin (.object fields) 1
  | item {items : List JsonText} {t : JsonText} {n : Nat} (ht : t ∈ items) (h : OpensWithin t n) :
      OpensWithin (.array items) (n + 1)
  | field {fields : List (List StringPart × JsonText)} {key : List StringPart} {t : JsonText}
      {n : Nat}
      (ht : (key, t) ∈ fields) (h : OpensWithin t n) : OpensWithin (.object fields) (n + 1)

theorem depth_le_depthOfItems {items : List JsonText} {t : JsonText} (h : t ∈ items) :
    t.depth ≤ depthOfItems items := by
  induction items with
  | nil => cases h
  | cons u rest ih =>
    rw [depthOfItems]
    rcases List.mem_cons.1 h with rfl | h
    · exact Nat.le_max_left _ _
    · exact (ih h).trans (Nat.le_max_right _ _)

theorem depth_le_depthOfFields {fields : List (List StringPart × JsonText)} {key : List StringPart}
    {t : JsonText} (h : (key, t) ∈ fields) : t.depth ≤ depthOfFields fields := by
  induction fields with
  | nil => cases h
  | cons f rest ih =>
    rw [depthOfFields]
    rcases List.mem_cons.1 h with rfl | h
    · exact Nat.le_max_left _ _
    · exact (ih h).trans (Nat.le_max_right _ _)

/-- No more brackets are open than the value is deep. -/
theorem OpensWithin.le_depth {t : JsonText} {n : Nat} (h : OpensWithin t n) : n ≤ t.depth := by
  induction h with
  | outside t => exact Nat.zero_le _
  | array items | object fields =>
    rw [depth]
    omega
  | item ht _ ih =>
    have := depth_le_depthOfItems ht
    rw [depth]
    omega
  | field ht _ ih =>
    have := depth_le_depthOfFields ht
    rw [depth]
    omega

-- A bracket is open inside itself even if there is nothing in it; otherwise the deepest item or
-- field counts.
mutual

/-- At the deepest place, as many brackets are open as the value is deep. -/
theorem opensWithin_depth : ∀ t : JsonText, OpensWithin t t.depth
  | .null | .bool _ | .number _ | .string _ => .outside _
  | .array items => by
    rw [depth]
    rcases depthOfItems_eq_zero_or items with hzero | ⟨t, ht, hopen⟩
    · rw [hzero]
      exact .array items
    · exact .item ht hopen
  | .object fields => by
    rw [depth]
    rcases depthOfFields_eq_zero_or fields with hzero | ⟨key, t, ht, hopen⟩
    · rw [hzero]
      exact .object fields
    · exact .field ht hopen

/-- Items that are not flat have one in which that many brackets are open at once. -/
theorem depthOfItems_eq_zero_or : ∀ items : List JsonText,
    depthOfItems items = 0 ∨ ∃ t ∈ items, OpensWithin t (depthOfItems items)
  | [] => Or.inl rfl
  | t :: rest => by
    rw [depthOfItems]
    rcases Nat.le_total (depthOfItems rest) t.depth with hle | hle
    · rw [Nat.max_eq_left hle]
      exact Or.inr ⟨t, List.mem_cons_self, opensWithin_depth t⟩
    · rw [Nat.max_eq_right hle]
      exact (depthOfItems_eq_zero_or rest).imp_right fun ⟨u, hu, hopen⟩ =>
        ⟨u, List.mem_cons_of_mem t hu, hopen⟩

theorem depthOfFields_eq_zero_or : ∀ fields : List (List StringPart × JsonText),
    depthOfFields fields = 0 ∨ ∃ key t, (key, t) ∈ fields ∧ OpensWithin t (depthOfFields fields)
  | [] => Or.inl rfl
  | (key, t) :: rest => by
    rw [depthOfFields]
    rcases Nat.le_total (depthOfFields rest) t.depth with hle | hle
    · rw [Nat.max_eq_left hle]
      exact Or.inr ⟨key, t, List.mem_cons_self, opensWithin_depth t⟩
    · rw [Nat.max_eq_right hle]
      exact (depthOfFields_eq_zero_or rest).imp_right fun ⟨k, u, hu, hopen⟩ =>
        ⟨k, u, List.mem_cons_of_mem _ hu, hopen⟩

end

/-! ## Strings and keys -/

mutual

/-- The written value with nothing in its strings and keys. -/
def emptied : JsonText → JsonText
  | null => null
  | bool b => bool b
  | number n => number n
  | string _ => string []
  | array items => array (emptiedItems items)
  | object fields => object (emptiedFields fields)

/-- The items of an array with nothing in their strings and keys. -/
def emptiedItems : List JsonText → List JsonText
  | [] => []
  | t :: rest => t.emptied :: emptiedItems rest

/-- The fields of an object with nothing in their strings and keys. -/
def emptiedFields : List (List StringPart × JsonText) → List (List StringPart × JsonText)
  | [] => []
  | (_, t) :: rest => ([], t.emptied) :: emptiedFields rest

end

mutual

/-- What strings and keys hold does not matter for the depth. -/
theorem depth_emptied : ∀ t : JsonText, t.emptied.depth = t.depth
  | .null | .bool _ | .number _ | .string _ => rfl
  | .array items => by rw [emptied, depth, depth, depthOfItems_emptied items]
  | .object fields => by rw [emptied, depth, depth, depthOfFields_emptied fields]

theorem depthOfItems_emptied : ∀ items : List JsonText,
    depthOfItems (emptiedItems items) = depthOfItems items
  | [] => rfl
  | t :: rest => by
    rw [emptiedItems, depthOfItems, depthOfItems, depth_emptied t, depthOfItems_emptied rest]

theorem depthOfFields_emptied : ∀ fields : List (List StringPart × JsonText),
    depthOfFields (emptiedFields fields) = depthOfFields fields
  | [] => rfl
  | (key, t) :: rest => by
    rw [emptiedFields, depthOfFields, depthOfFields, depth_emptied t, depthOfFields_emptied rest]

end

/-! ## Bytes -/

namespace Nesting

/-- The state after one more byte. -/
def stepByte (n : Nesting) (b : UInt8) : Nesting :=
  n.step (Char.ofNat b.toNat)

/-- The state after a character that means nothing to the pass, except that it may be escaped. -/
def past (n : Nesting) : Nesting :=
  { n with quote := if n.quote = .escaped then .inside else n.quote }

theorem past_past (n : Nesting) : n.past.past = n.past := by
  obtain ⟨depth, deepest, quote⟩ := n
  cases quote <;> rfl

theorem step_of_not_ascii (n : Nesting) {c : Char} (hc : 0x80 ≤ c.toNat) : n.step c = n.past := by
  have hne : ∀ d : Char, d.toNat < 0x80 → c ≠ d := by
    rintro d hd rfl
    omega
  have hquote := hne '"' (by decide)
  have hescape := hne '\\' (by decide)
  have hopening : ¬ (c = '{' ∨ c = '[') := not_or.2 ⟨hne '{' (by decide), hne '[' (by decide)⟩
  have hclosing : ¬ (c = '}' ∨ c = ']') := not_or.2 ⟨hne '}' (by decide), hne ']' (by decide)⟩
  obtain ⟨depth, deepest, quote⟩ := n
  cases quote with
  | outside => simp only [step, if_neg hquote, if_neg hopening, if_neg hclosing]; rfl
  | inside => simp only [step, if_neg hquote, if_neg hescape]; rfl
  | escaped => rfl

/-- A byte that is not ASCII can only end an escape. -/
theorem stepByte_of_not_ascii (n : Nesting) {b : UInt8} (hb : 0x80 ≤ b.toNat) :
    n.stepByte b = n.past := by
  have hbound : b.toNat < 256 := b.toNat_lt
  have hchar : (Char.ofNat b.toNat).toNat = b.toNat :=
    (Utf8.eq_ofNat_iff (Or.inl (by omega))).1 rfl
  exact step_of_not_ascii n (hb.trans_eq hchar.symm)

/-- All bytes of a character outside ASCII count as one. -/
theorem foldl_stepByte_of_not_ascii (n : Nesting) {bytes : List UInt8} (hne : bytes ≠ [])
    (h : ∀ b ∈ bytes, 0x80 ≤ b.toNat) : bytes.foldl stepByte n = n.past := by
  induction bytes generalizing n with
  | nil => exact absurd rfl hne
  | cons b rest ih =>
    obtain ⟨hb, hrest⟩ := List.forall_mem_cons.1 h
    rw [List.foldl_cons, stepByte_of_not_ascii n hb]
    by_cases hlast : rest = []
    · rw [hlast]
      rfl
    · rw [ih n.past hlast hrest, past_past]

/-- A character that is not ASCII is encoded without ASCII bytes. -/
theorem not_ascii_of_mem_encodeChar {c : Char} (hc : 0x80 ≤ c.toNat) :
    ∀ b ∈ String.utf8EncodeChar c, 0x80 ≤ b.toNat := by
  rw [Utf8.encodeChar_eq, if_neg (by omega)]
  split_ifs <;> simp <;> omega

/-- The bytes of a character have the effect of the character. -/
theorem foldl_stepByte_encodeChar (n : Nesting) (c : Char) :
    (String.utf8EncodeChar c).foldl stepByte n = n.step c := by
  by_cases hc : 0x80 ≤ c.toNat
  · rw [foldl_stepByte_of_not_ascii n String.utf8EncodeChar_ne_nil (not_ascii_of_mem_encodeChar hc),
      step_of_not_ascii n hc]
  · have hchar : Char.ofNat (UInt8.ofNat c.toNat).toNat = c := by
      rw [UInt8.toNat_ofNat', Nat.mod_eq_of_lt (by omega), Char.ofNat_toNat]
    rw [Utf8.encodeChar_eq, if_pos (by omega), List.foldl_cons, List.foldl_nil, stepByte, hchar]

/-- The pass may go over the bytes of a text as well as over its characters. -/
theorem foldl_stepByte (n : Nesting) (text : String) :
    text.toUTF8.data.toList.foldl stepByte n = text.toList.foldl step n := by
  rw [Utf8.toUTF8_eq_flatMap, List.foldl_flatMap]
  simp only [foldl_stepByte_encodeChar]

end Nesting

/-! ## The pass on texts -/

/-- **The pass is exact on JSON.**  On a text of the grammar it finds the largest number of arrays
and objects that are open at the same time, and it finds the same on a text that differs only in
what its strings and keys hold.  It makes no difference whether it goes over the characters or over
the bytes of the text. -/
theorem nesting_exact {t : JsonText} {text : String} (h : Spells (.element t) text.toList) :
    IsGreatest {n | OpensWithin t n} (nesting text) ∧
      (∀ u other, Spells (.element u) other.toList → u.emptied = t.emptied →
        nesting other = nesting text) ∧
      (text.toUTF8.data.toList.foldl Nesting.stepByte {}).deepest = nesting text := by
  rw [nesting_of_spells h]
  refine ⟨⟨opensWithin_depth t, fun n hn => OpensWithin.le_depth hn⟩, ?_, ?_⟩
  · intro u other hu hemptied
    rw [nesting_of_spells hu, ← depth_emptied u, hemptied, depth_emptied t]
  · rw [Nesting.foldl_stepByte]
    exact nesting_of_spells h

/-- A key with a bracket and an escaped quote. -/
def bracketedKey : List StringPart :=
  [.char ']', .char '"']

/-- An object that repeats this key, with an array in an array under it and brackets in its
strings. -/
def bracketedValue : JsonText :=
  .object [(bracketedKey, .array [.string [.unit 0x5b, .char '\\'], .array []]),
    (bracketedKey, .string [.char 'é', .char '}'])]

/-- The object as a text. -/
def bracketedText : String :=
  r#"{"]\"": ["\u005b\\", [ ]], "]\"": "é}"}"#

theorem spells_bracketedText : Spells (.element bracketedValue) bracketedText.toList := by
  have hkey : StringPart.Spells bracketedKey [']', '\\', '"'] :=
    .cons (.plain (by decide) (by decide) (by decide)) (.cons (.short rfl) .nil)
  have hescaped : StringPart.Spells [.unit 0x5b, .char '\\']
      ['\\', 'u', '0', '0', '5', 'b', '\\', '\\'] :=
    .cons (.unit rfl) (.cons (.short rfl) .nil)
  have hplain : StringPart.Spells [.char 'é', .char '}'] ['é', '}'] :=
    .cons (.plain (by decide) (by decide) (by decide))
      (.cons (.plain (by decide) (by decide) (by decide)) .nil)
  have hspace : Blank [' '] := List.forall_mem_singleton.2 rfl
  have hitems := Spells.nextItem (Spells.string hescaped).element_of_value
    (.lastItem (.element hspace (.emptyArray hspace) blank_nil))
  have hfields := Spells.nextField (.mk blank_nil hkey blank_nil)
    (.element hspace (.array hitems) blank_nil)
    (.lastField (.mk hspace hkey blank_nil) (.element hspace (.string hplain) blank_nil))
  exact (Spells.object hfields).element_of_value

theorem nesting_exact_bracketed :
    Spells (.element bracketedValue) bracketedText.toList ∧ nesting bracketedText = 3 ∧
      IsGreatest {n | OpensWithin bracketedValue n} 3 ∧
      (∀ u other, Spells (.element u) other.toList → u.emptied = bracketedValue.emptied →
        nesting other = 3) ∧
      (bracketedText.toUTF8.data.toList.foldl Nesting.stepByte {}).deepest = 3 := by
  have hthree : nesting bracketedText = 3 := by decide +kernel
  have hexact := nesting_exact spells_bracketedText
  rw [hthree] at hexact
  exact ⟨spells_bracketedText, hthree, hexact⟩

end SolidityScan.JsonText
