/-
# How deeply values nest

The depth of a written value is the number of brackets around its innermost parts.  The pass over
the characters finds it without knowing the grammar, because everything between two brackets that
belong together leaves the pass as it was: outside strings, with as many brackets open as before.
The value that is denoted nests as deeply as it is written, if no object repeats a key; of a
repeated key only the last field counts, and a deeper one before it is lost.

* `JsonText.depth`, `Json.depth` : the depth of a written value and of a value;
* `JsonText.nests_of_spells`, `JsonText.nesting_of_spells` : what the pass does on a phrase of the
  grammar;
* `JsonText.depth_of_value?` : a value nests as deeply as its text.
-/
import Mathlib.Data.List.Nodup
import SolidityScan.Json.Nesting
import SolidityScan.Proofs.Json.Fields
import SolidityScan.Proofs.Json.Grammar

namespace SolidityScan

/-! ## Depths -/

namespace Json

mutual

/-- The number of arrays and objects around the innermost part of the value. -/
def depth : Json → Nat
  | arr items => depthOfItems items + 1
  | obj fields => depthOfFields fields + 1
  | _ => 0

/-- The largest depth among the items of an array. -/
def depthOfItems : List Json → Nat
  | [] => 0
  | v :: rest => max v.depth (depthOfItems rest)

/-- The largest depth among the fields of an object. -/
def depthOfFields : List (String × Json) → Nat
  | [] => 0
  | (_, v) :: rest => max v.depth (depthOfFields rest)

end

theorem depthOfItems_le_iff {items : List Json} {k : Nat} :
    depthOfItems items ≤ k ↔ ∀ v ∈ items, v.depth ≤ k := by
  induction items with
  | nil => simp [depthOfItems]
  | cons v rest ih => rw [depthOfItems, Nat.max_le, ih, List.forall_mem_cons]

theorem depthOfFields_le_iff {fields : List (String × Json)} {k : Nat} :
    depthOfFields fields ≤ k ↔ ∀ f ∈ fields, f.2.depth ≤ k := by
  induction fields with
  | nil => simp [depthOfFields]
  | cons f rest ih => rw [depthOfFields, Nat.max_le, ih, List.forall_mem_cons]

/-- Ordering the fields of an object keeps the depth, if no key is repeated. -/
theorem depthOfFields_orderFields {fields : List (String × Json)} (h : (fields.map (·.1)).Nodup) :
    depthOfFields (orderFields fields) = depthOfFields fields := by
  refine eq_of_forall_ge_iff fun k => ?_
  simp only [depthOfFields_le_iff, mem_orderFields_iff h]

end Json

namespace JsonText

mutual

/-- The number of brackets around the innermost part of the written value. -/
def depth : JsonText → Nat
  | array items => depthOfItems items + 1
  | object fields => depthOfFields fields + 1
  | _ => 0

/-- The largest depth among the items of an array. -/
def depthOfItems : List JsonText → Nat
  | [] => 0
  | t :: rest => max t.depth (depthOfItems rest)

/-- The largest depth among the fields of an object. -/
def depthOfFields : List (List StringPart × JsonText) → Nat
  | [] => 0
  | (_, t) :: rest => max t.depth (depthOfFields rest)

end

/-- The largest depth among the values of a phrase. -/
def Phrase.depth : Phrase → Nat
  | .value t | .element t => t.depth
  | .elements items => depthOfItems items
  | .members fields => depthOfFields fields

/-! ## The pass over the characters -/

/-- Going over the characters outside strings, the pass ends outside strings with as many brackets
open as before, and has had `k` more of them open in between. -/
def Nests (k : Nat) (cs : List Char) : Prop :=
  ∀ depth deepest, depth ≤ deepest →
    cs.foldl Nesting.step ⟨depth, deepest, .outside⟩ = ⟨depth, max deepest (depth + k), .outside⟩

/-- Of two texts after each other, the deeper one counts. -/
theorem Nests.append {j k : Nat} {cs ds : List Char} (hcs : Nests j cs) (hds : Nests k ds) :
    Nests (max j k) (cs ++ ds) := by
  intro depth deepest hle
  rw [List.foldl_append, hcs depth deepest hle, hds depth _ (by omega)]
  congr 1
  omega

/-- A pair of brackets adds a level. -/
theorem Nests.brackets {k : Nat} {cs : List Char} (h : Nests k cs) {opening closing : Char}
    (hopening : opening = '{' ∨ opening = '[') (hclosing : closing = '}' ∨ closing = ']') :
    Nests (k + 1) (opening :: (cs ++ [closing])) := by
  intro depth deepest hle
  have hopen : Nesting.step ⟨depth, deepest, .outside⟩ opening =
      ⟨depth + 1, max deepest (depth + 1), .outside⟩ := by
    rcases hopening with rfl | rfl <;> rfl
  have hclose : ∀ m, Nesting.step ⟨depth + 1, m, .outside⟩ closing = ⟨depth, m, .outside⟩ := by
    intro m
    rcases hclosing with rfl | rfl <;> rfl
  rw [List.foldl_cons, hopen, List.foldl_append, h (depth + 1) _ (by omega), List.foldl_cons,
    hclose, List.foldl_nil]
  congr 1
  omega

/-- The character is neither a bracket nor a quote. -/
def IsPlain (c : Char) : Prop :=
  c ≠ '"' ∧ ¬ (c = '{' ∨ c = '[') ∧ ¬ (c = '}' ∨ c = ']')

instance (c : Char) : Decidable (IsPlain c) :=
  inferInstanceAs (Decidable (_ ∧ _ ∧ _))

/-- Characters that are neither brackets nor quotes do not nest. -/
theorem nests_of_isPlain {cs : List Char} (h : ∀ c ∈ cs, IsPlain c) : Nests 0 cs := by
  intro depth deepest hle
  rw [Nat.add_zero, Nat.max_eq_left hle]
  induction cs with
  | nil => rfl
  | cons c cs ih =>
    obtain ⟨⟨hquote, hopening, hclosing⟩, hcs⟩ := List.forall_mem_cons.1 h
    have hstep : Nesting.step ⟨depth, deepest, .outside⟩ c = ⟨depth, deepest, .outside⟩ := by
      simp only [Nesting.step, if_neg hquote, if_neg hopening, if_neg hclosing]
    rw [List.foldl_cons, hstep, ih hcs]

theorem nests_of_blank {gap : List Char} (h : Blank gap) : Nests 0 gap := by
  refine nests_of_isPlain fun c hc => ?_
  have hgap := h c hc
  simp only [isGap, Bool.or_eq_true, beq_iff_eq] at hgap
  rcases hgap with ((rfl | rfl) | rfl) | rfl <;> decide

theorem isPlain_of_isDigit {c : Char} (h : c.isDigit = true) : IsPlain c := by
  unfold IsPlain
  refine ⟨?_, ?_, ?_⟩
  · rintro rfl
    cases h
  · rintro (rfl | rfl) <;> cases h
  · rintro (rfl | rfl) <;> cases h

open NumberText in
/-- Numbers do not nest. -/
theorem nests_of_spells_number {n : NumberText} {cs : List Char} (h : n.Spells cs) :
    Nests 0 cs := by
  obtain @⟨negative, whole, fraction, exponent, fs, es, hwhole, -, hfraction, hexponent⟩ := h
  have hrun : ∀ {ds}, IsRun ds → ∀ c ∈ ds, IsPlain c := fun hds c hc =>
    isPlain_of_isDigit (hds.digits c hc)
  have hminus : ∀ c ∈ minus negative, IsPlain c := by
    cases negative <;> simp [minus, IsPlain]
  have hfs : ∀ c ∈ fs, IsPlain c := by
    cases hfraction with
    | absent => exact List.forall_mem_nil _
    | present hds => exact List.forall_mem_cons.2 ⟨by decide, hrun hds⟩
  have hes : ∀ c ∈ es, IsPlain c := by
    cases hexponent with
    | absent => exact List.forall_mem_nil _
    | present he hsign hds =>
      refine List.forall_mem_cons.2 ⟨?_, List.forall_mem_append.2 ⟨?_, hrun hds⟩⟩
      · rcases he with rfl | rfl <;> decide
      · cases hsign <;> simp [IsPlain]
  refine nests_of_isPlain ?_
  simp only [List.forall_mem_append]
  exact ⟨hminus, hrun hwhole, hfs, hes⟩

/-- Inside a string only quotes and escapes matter. -/
theorem step_inside {c : Char} (hquote : c ≠ '"') (hescape : c ≠ '\\') (depth deepest : Nat) :
    Nesting.step ⟨depth, deepest, .inside⟩ c = ⟨depth, deepest, .inside⟩ := by
  simp only [Nesting.step, if_neg hescape, if_neg hquote]

theorem step_inside_hex {c : Char} {x : Nat} (h : Text.hexValue? c = some x) (depth deepest : Nat) :
    Nesting.step ⟨depth, deepest, .inside⟩ c = ⟨depth, deepest, .inside⟩ := by
  refine step_inside ?_ ?_ depth deepest
  · rintro rfl
    cases h
  · rintro rfl
    cases h

/-- Inside a string nothing counts, and an escaped quote does not end it. -/
theorem foldl_inside {parts : List StringPart} {cs : List Char} (h : StringPart.Spells parts cs)
    (depth deepest : Nat) :
    cs.foldl Nesting.step ⟨depth, deepest, .inside⟩ = ⟨depth, deepest, .inside⟩ := by
  induction h with
  | nil => rfl
  | cons hpart _ ih =>
    rw [List.foldl_append]
    suffices hstep :
        List.foldl Nesting.step ⟨depth, deepest, .inside⟩ _ = ⟨depth, deepest, .inside⟩ by
      rw [hstep, ih]
    cases hpart with
    | plain _ hquote hescape => exact step_inside hquote hescape depth deepest
    | short _ => rfl
    | @unit a b c d _ hn =>
      -- only the first character after the backslash is taken as escaped
      obtain ⟨_, ha, hn⟩ := Option.bind_eq_some_iff.1 hn
      obtain ⟨_, hb, hn⟩ := Option.bind_eq_some_iff.1 hn
      obtain ⟨_, hc, hn⟩ := Option.bind_eq_some_iff.1 hn
      obtain ⟨_, hd, -⟩ := Option.bind_eq_some_iff.1 hn
      change List.foldl Nesting.step ⟨depth, deepest, .inside⟩ [a, b, c, d] = _
      simp only [List.foldl_cons, List.foldl_nil, step_inside_hex ha, step_inside_hex hb,
        step_inside_hex hc, step_inside_hex hd]

/-- Strings do not nest, whatever brackets they hold. -/
theorem nests_string {parts : List StringPart} {cs : List Char} (h : StringPart.Spells parts cs) :
    Nests 0 ('"' :: (cs ++ ['"'])) := by
  intro depth deepest hle
  have hopen : Nesting.step ⟨depth, deepest, .outside⟩ '"' = ⟨depth, deepest, .inside⟩ := rfl
  rw [List.foldl_cons, hopen, List.foldl_append, foldl_inside h, Nat.add_zero, Nat.max_eq_left hle]
  rfl

theorem nests_key {key : List StringPart} {ks : List Char} (h : SpellsKey key ks) : Nests 0 ks := by
  obtain ⟨hbefore, hkey, hafter⟩ := h
  have hcolon : Nests 0 [':'] := nests_of_isPlain (List.forall_mem_singleton.2 (by decide))
  have hall := (nests_of_blank hbefore).append
    ((nests_string hkey).append ((nests_of_blank hafter).append hcolon))
  simpa using hall

/-- A comma between two texts does not nest. -/
theorem Nests.comma {j k : Nat} {cs ds : List Char} (hcs : Nests j cs) (hds : Nests k ds) :
    Nests (max j k) (cs ++ ',' :: ds) := by
  have hcomma : Nests 0 [','] := nests_of_isPlain (List.forall_mem_singleton.2 (by decide))
  have hall := hcs.append (hcomma.append hds)
  rwa [Nat.zero_max] at hall

/-- **Over a phrase of the grammar, the pass finds the depth of what it spells.** -/
theorem nests_of_spells {p : Phrase} {cs : List Char} (h : Spells p cs) : Nests p.depth cs := by
  induction h with
  | null | true | false => exact nests_of_isPlain (by simp [IsPlain])
  | number hn => exact nests_of_spells_number hn
  | string hs => exact nests_string hs
  | emptyArray hgap => exact (nests_of_blank hgap).brackets (Or.inr rfl) (Or.inr rfl)
  | emptyObject hgap => exact (nests_of_blank hgap).brackets (Or.inl rfl) (Or.inl rfl)
  | array _ ih => exact ih.brackets (Or.inr rfl) (Or.inr rfl)
  | object _ ih => exact ih.brackets (Or.inl rfl) (Or.inl rfl)
  | element hbefore _ hafter ih =>
    have hall := (nests_of_blank hbefore).append (ih.append (nests_of_blank hafter))
    rwa [Nat.zero_max, Nat.max_zero] at hall
  | lastItem _ ih =>
    rw [Phrase.depth, depthOfItems, depthOfItems, Nat.max_zero]
    exact ih
  | nextItem _ _ ih ihitems => exact ih.comma ihitems
  | lastField hkey _ ih =>
    have hall := (nests_key hkey).append ih
    rw [Nat.zero_max] at hall
    rw [Phrase.depth, depthOfFields, depthOfFields, Nat.max_zero]
    exact hall
  | nextField hkey _ _ ih ihfields =>
    have hall := (nests_key hkey).append (ih.comma ihfields)
    rwa [Nat.zero_max] at hall

/-- On a JSON text the pass finds the depth of the written value. -/
theorem nesting_of_spells {t : JsonText} {text : String} (h : Spells (.element t) text.toList) :
    nesting text = t.depth := by
  have hpass := nests_of_spells h 0 0 (Nat.le_refl 0)
  rw [nesting, hpass, Nat.zero_max, Nat.zero_add]
  rfl

/-! ## Values of texts without repeated keys -/

/-- No object of the written value has two keys that denote the same string. -/
inductive KeysDistinct : JsonText → Prop where
  | null : KeysDistinct .null
  | bool (b : Bool) : KeysDistinct (.bool b)
  | number (n : NumberText) : KeysDistinct (.number n)
  | string (s : List StringPart) : KeysDistinct (.string s)
  | array {items : List JsonText} : (∀ t ∈ items, KeysDistinct t) → KeysDistinct (.array items)
  | object {fields : List (List StringPart × JsonText)} :
      (fields.map fun f => StringPart.string? f.1).Nodup → (∀ f ∈ fields, KeysDistinct f.2) →
      KeysDistinct (.object fields)

theorem names_of_fields? {fields : List (List StringPart × JsonText)} {read : List (String × Json)}
    (h : fields? fields = some read) :
    fields.map (fun f => StringPart.string? f.1) = (read.map (·.1)).map some := by
  induction fields generalizing read with
  | nil =>
    cases h
    rfl
  | cons f rest ih =>
    simp only [fields?, Option.bind_eq_bind, Option.bind_eq_some_iff] at h
    obtain ⟨name, hname, v, -, more, hmore, heq⟩ := h
    cases heq
    rw [List.map_cons, List.map_cons, List.map_cons, ih hmore, hname]

-- The recursion is that of the denotation; an object keeps all its fields because their names
-- differ.
mutual

/-- The value of a text is as deep as the text, if no key is repeated. -/
theorem depth_of_value? : ∀ (t : JsonText) {v : Json}, KeysDistinct t → t.value? = some v →
    v.depth = t.depth
  | null, _, _, h | bool _, _, _, h => by
    cases h
    rfl
  | number n, _, _, h => by
    obtain ⟨x, -, rfl⟩ := Option.map_eq_some_iff.1 h
    rfl
  | string s, _, _, h => by
    obtain ⟨text, -, rfl⟩ := Option.map_eq_some_iff.1 h
    rfl
  | array items, _, .array hitems, h => by
    obtain ⟨values, hvalues, rfl⟩ := Option.map_eq_some_iff.1 h
    rw [Json.depth, depth, depth_of_values? items hitems hvalues]
  | object fields, _, .object hnames hfields, h => by
    obtain ⟨read, hread, rfl⟩ := Option.map_eq_some_iff.1 h
    rw [names_of_fields? hread] at hnames
    rw [Json.depth, depth, Json.depthOfFields_orderFields (List.Nodup.of_map some hnames),
      depth_of_fields? fields hfields hread]

theorem depth_of_values? : ∀ (items : List JsonText) {values : List Json},
    (∀ t ∈ items, KeysDistinct t) → values? items = some values →
    Json.depthOfItems values = depthOfItems items
  | [], _, _, h => by
    cases h
    rfl
  | item :: rest, values, hitems, h => by
    simp only [values?, Option.bind_eq_bind, Option.bind_eq_some_iff] at h
    obtain ⟨v, hv, more, hmore, heq⟩ := h
    cases heq
    obtain ⟨hitem, hrest⟩ := List.forall_mem_cons.1 hitems
    rw [Json.depthOfItems, depthOfItems, depth_of_value? item hitem hv,
      depth_of_values? rest hrest hmore]

theorem depth_of_fields? : ∀ (fields : List (List StringPart × JsonText))
    {read : List (String × Json)}, (∀ f ∈ fields, KeysDistinct f.2) → fields? fields = some read →
    Json.depthOfFields read = depthOfFields fields
  | [], _, _, h => by
    cases h
    rfl
  | (key, item) :: rest, read, hfields, h => by
    simp only [fields?, Option.bind_eq_bind, Option.bind_eq_some_iff] at h
    obtain ⟨name, -, v, hv, more, hmore, heq⟩ := h
    cases heq
    obtain ⟨hitem, hrest⟩ := List.forall_mem_cons.1 hfields
    rw [Json.depthOfFields, depthOfFields, depth_of_value? item hitem hv,
      depth_of_fields? rest hrest hmore]

end

end JsonText

/-! ## Texts of a value -/

/-- The text is a JSON text of the value, and no object in it repeats a key. -/
def Json.IsTextOf (text : String) (v : Json) : Prop :=
  ∃ t, JsonText.Spells (.element t) text.toList ∧ t.KeysDistinct ∧ t.value? = some v

namespace Json.IsTextOf

variable {text : String} {v : Json}

theorem parse? (h : IsTextOf text v) : Json.parse? text = some v := by
  obtain ⟨t, hspells, -, hvalue⟩ := h
  rw [Json.parse?, JsonText.read?_eq_some_iff.2 hspells]
  exact hvalue

/-- The pass finds the depth of the value. -/
theorem nesting (h : IsTextOf text v) : JsonText.nesting text = v.depth := by
  obtain ⟨t, hspells, hkeys, hvalue⟩ := h
  rw [JsonText.depth_of_value? t hkeys hvalue, JsonText.nesting_of_spells hspells]

end Json.IsTextOf

end SolidityScan
