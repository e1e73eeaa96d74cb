/-
# UTF-8 texts

Decoding accepts exactly the bytes that encode some text, and gives that text back.  Everything
comes down to single characters: for each length, the bytes that a character encodes to are those
that pass the checks of the decoder, and the character is the one that the decoder computes.

* `encodeChar_eq_one_iff` to `encodeChar_eq_four_iff` : the bytes of one character;
* `decode_eq_ok_iff` : decoding inverts encoding.
-/
import Mathlib.Data.String.Basic
import SolidityScan.Text.Utf8

namespace SolidityScan.Utf8

open String

/-! ## Bytes as numbers -/

theorem isContinuation_iff {b : UInt8} :
    isContinuation b = true ↔ 0x80 ≤ b.toNat ∧ b.toNat ≤ 0xbf := by
  simp [isContinuation, UInt8.le_iff_toNat_le]

/-- A second byte of three continues the sequence, and leaves out overlong forms and surrogates. -/
theorem isSecondOfThree_iff {a b : UInt8} :
    isSecondOfThree a b = true ↔ 0x80 ≤ b.toNat ∧ b.toNat ≤ 0xbf ∧
      (a.toNat = 0xe0 → 0xa0 ≤ b.toNat) ∧ (a.toNat = 0xed → b.toNat ≤ 0x9f) := by
  have he0 : a = 0xe0 ↔ a.toNat = 0xe0 := UInt8.toNat_inj.symm
  have hed : a = 0xed ↔ a.toNat = 0xed := UInt8.toNat_inj.symm
  unfold isSecondOfThree
  simp only [he0, hed]
  split_ifs
  · simp only [Bool.and_eq_true, decide_eq_true_eq, UInt8.le_iff_toNat_le, UInt8.reduceToNat]
    omega
  · simp only [Bool.and_eq_true, decide_eq_true_eq, UInt8.le_iff_toNat_le, UInt8.reduceToNat]
    omega
  · rw [isContinuation_iff]
    omega

/-- A second byte of four continues the sequence, and leaves out overlong forms and numbers above
the last code point. -/
theorem isSecondOfFour_iff {a b : UInt8} :
    isSecondOfFour a b = true ↔ 0x80 ≤ b.toNat ∧ b.toNat ≤ 0xbf ∧
      (a.toNat = 0xf0 → 0x90 ≤ b.toNat) ∧ (a.toNat = 0xf4 → b.toNat ≤ 0x8f) := by
  have hf0 : a = 0xf0 ↔ a.toNat = 0xf0 := UInt8.toNat_inj.symm
  have hf4 : a = 0xf4 ↔ a.toNat = 0xf4 := UInt8.toNat_inj.symm
  unfold isSecondOfFour
  simp only [hf0, hf4]
  split_ifs
  · simp only [Bool.and_eq_true, decide_eq_true_eq, UInt8.le_iff_toNat_le, UInt8.reduceToNat]
    omega
  · simp only [Bool.and_eq_true, decide_eq_true_eq, UInt8.le_iff_toNat_le, UInt8.reduceToNat]
    omega
  · rw [isContinuation_iff]
    omega

theorem payload_eq (b : UInt8) : payload b = b.toNat - 0x80 := rfl

theorem ofNat_eq_iff {n : Nat} {a : UInt8} : UInt8.ofNat n = a ↔ n % 256 = a.toNat := by
  rw [← UInt8.toNat_inj, UInt8.toNat_ofNat']

/-- A number that is a code point is the character with that code point. -/
theorem eq_ofNat_iff {c : Char} {n : Nat} (h : n.isValidChar) : c = Char.ofNat n ↔ c.toNat = n := by
  have hn : (Char.ofNat n).toNat = n := by
    unfold Char.ofNat
    rw [dif_pos h]
    rfl
  rw [← Char.toNat_inj, hn]

/-! ## One character -/

/-- The bytes of a character, by the size of its code point. -/
theorem encodeChar_eq (c : Char) :
    utf8EncodeChar c =
      if c.toNat ≤ 0x7f then [.ofNat c.toNat]
      else if c.toNat ≤ 0x7ff then
        [.ofNat (c.toNat / 64 % 32 + 0xc0), .ofNat (c.toNat % 64 + 0x80)]
      else if c.toNat ≤ 0xffff then
        [.ofNat (c.toNat / 4096 % 16 + 0xe0), .ofNat (c.toNat / 64 % 64 + 0x80),
          .ofNat (c.toNat % 64 + 0x80)]
      else
        [.ofNat (c.toNat / 262144 % 8 + 0xf0), .ofNat (c.toNat / 4096 % 64 + 0x80),
          .ofNat (c.toNat / 64 % 64 + 0x80), .ofNat (c.toNat % 64 + 0x80)] :=
  rfl

theorem isValidChar_toNat (c : Char) : c.toNat.isValidChar :=
  c.valid

theorem encodeChar_eq_one_iff {c : Char} {a : UInt8} :
    utf8EncodeChar c = [a] ↔ a < 0x80 ∧ c = Char.ofNat a.toNat := by
  have ha : a < 0x80 ↔ a.toNat < 0x80 := UInt8.lt_iff_toNat_lt
  rw [encodeChar_eq, ha]
  constructor
  · intro h
    split_ifs at h with h1 h2 h3
    · simp only [List.cons.injEq, ofNat_eq_iff, and_true] at h
      have hn : a.toNat = c.toNat := by omega
      exact ⟨by omega, by rw [hn, Char.ofNat_toNat]⟩
    all_goals simp at h
  · rintro ⟨hlt, heq⟩
    rw [eq_ofNat_iff (by omega)] at heq
    rw [if_pos (by omega)]
    simp only [List.cons.injEq, ofNat_eq_iff, and_true]
    omega

theorem encodeChar_eq_two_iff {c : Char} {a b : UInt8} :
    utf8EncodeChar c = [a, b] ↔ (0xc2 ≤ a ∧ a ≤ 0xdf) ∧ isContinuation b = true ∧
      c = Char.ofNat ((a.toNat - 0xc0) * 0x40 + payload b) := by
  have ha : (0xc2 ≤ a ∧ a ≤ 0xdf) ↔ 0xc2 ≤ a.toNat ∧ a.toNat ≤ 0xdf := by
    simp [UInt8.le_iff_toNat_le]
  have hb := payload_eq b
  rw [encodeChar_eq, ha, isContinuation_iff]
  constructor
  · intro h
    split_ifs at h with h1 h2 h3
    · simp at h
    · simp only [List.cons.injEq, ofNat_eq_iff, and_true] at h
      have hn : (a.toNat - 0xc0) * 0x40 + payload b = c.toNat := by omega
      exact ⟨by omega, by omega, by rw [hn, Char.ofNat_toNat]⟩
    all_goals simp at h
  · rintro ⟨hfirst, hsecond, heq⟩
    rw [eq_ofNat_iff (by omega)] at heq
    rw [if_neg (by omega), if_pos (by omega)]
    simp only [List.cons.injEq, ofNat_eq_iff, and_true]
    omega

theorem encodeChar_eq_three_iff {c : Char} {a b d : UInt8} :
    utf8EncodeChar c = [a, b, d] ↔ (0xe0 ≤ a ∧ a ≤ 0xef) ∧ isSecondOfThree a b = true ∧
      isContinuation d = true ∧
      c = Char.ofNat ((a.toNat - 0xe0) * 0x1000 + payload b * 0x40 + payload d) := by
  have hc := isValidChar_toNat c
  have ha : (0xe0 ≤ a ∧ a ≤ 0xef) ↔ 0xe0 ≤ a.toNat ∧ a.toNat ≤ 0xef := by
    simp [UInt8.le_iff_toNat_le]
  have hb := payload_eq b
  have hd := payload_eq d
  rw [encodeChar_eq, ha, isSecondOfThree_iff, isContinuation_iff]
  constructor
  · intro h
    split_ifs at h with h1 h2 h3
    · simp at h
    · simp at h
    · simp only [List.cons.injEq, ofNat_eq_iff, and_true] at h
      have hn : (a.toNat - 0xe0) * 0x1000 + payload b * 0x40 + payload d = c.toNat := by omega
      exact ⟨by omega, by omega, by omega, by rw [hn, Char.ofNat_toNat]⟩
    · simp at h
  · rintro ⟨hfirst, hsecond, hthird, heq⟩
    rw [eq_ofNat_iff (by omega)] at heq
    rw [if_neg (by omega), if_neg (by omega), if_pos (by omega)]
    simp only [List.cons.injEq, ofNat_eq_iff, and_true]
    omega

theorem encodeChar_eq_four_iff {c : Char} {a b d e : UInt8} :
    utf8EncodeChar c = [a, b, d, e] ↔ (0xf0 ≤ a ∧ a ≤ 0xf4) ∧ isSecondOfFour a b = true ∧
      isContinuation d = true ∧ isContinuation e = true ∧
      c = Char.ofNat ((a.toNat - 0xf0) * 0x40000 + payload b * 0x1000 + payload d * 0x40 +
        payload e) := by
  have hc : c.toNat < 0x110000 := by
    have hvalid := isValidChar_toNat c
    omega
  have ha : (0xf0 ≤ a ∧ a ≤ 0xf4) ↔ 0xf0 ≤ a.toNat ∧ a.toNat ≤ 0xf4 := by
    simp [UInt8.le_iff_toNat_le]
  have hb := payload_eq b
  have hd := payload_eq d
  have he := payload_eq e
  rw [encodeChar_eq, ha, isSecondOfFour_iff, isContinuation_iff, isContinuation_iff]
  constructor
  · intro h
    split_ifs at h with h1 h2 h3
    · simp at h
    · simp at h
    · simp at h
    · simp only [List.cons.injEq, ofNat_eq_iff, and_true] at h
      have hn : (a.toNat - 0xf0) * 0x40000 + payload b * 0x1000 + payload d * 0x40 + payload e =
          c.toNat := by omega
      exact ⟨by omega, by omega, by omega, by omega, by rw [hn, Char.ofNat_toNat]⟩
  · rintro ⟨hfirst, hsecond, hthird, hfourth, heq⟩
    rw [eq_ofNat_iff (by omega)] at heq
    rw [if_neg (by omega), if_neg (by omega), if_neg (by omega)]
    simp only [List.cons.injEq, ofNat_eq_iff, and_true]
    omega

/-! ## All characters -/

/-- One more character in front of what was decoded. -/
theorem cons_eq_ok {c : Char} {x : Except Utf8Error (List Char)} {cs : List Char}
    (h : (do return c :: (← x)) = .ok cs) : ∃ more, x = .ok more ∧ cs = c :: more := by
  cases x with
  | error e => cases h
  | ok more =>
    cases h
    exact ⟨more, rfl, rfl⟩

/-- What is decoded encodes to the bytes it was decoded from. -/
theorem encode_of_decodeFrom {index : Nat} {bytes : List UInt8} {cs : List Char}
    (h : decodeFrom index bytes = .ok cs) : cs.flatMap utf8EncodeChar = bytes := by
  fun_induction decodeFrom index bytes generalizing cs with
  | case1 =>
    cases h
    rfl
  | case2 index a rest ha ih =>
    obtain ⟨more, hmore, rfl⟩ := cons_eq_ok h
    rw [List.flatMap_cons, ih hmore, encodeChar_eq_one_iff.2 ⟨ha, rfl⟩]
    rfl
  | case4 index a _ ha b rest hb n =>
    rename_i ih
    obtain ⟨more, hmore, rfl⟩ := cons_eq_ok h
    rw [Bool.and_eq_true, decide_eq_true_eq, decide_eq_true_eq] at ha
    rw [List.flatMap_cons, ih hmore, encodeChar_eq_two_iff.2 ⟨ha, hb, rfl⟩]
    rfl
  | case9 index a _ _ ha b hb d rest hd n =>
    rename_i ih
    obtain ⟨more, hmore, rfl⟩ := cons_eq_ok h
    rw [Bool.and_eq_true, decide_eq_true_eq, decide_eq_true_eq] at ha
    rw [Bool.not_eq_true', Bool.not_eq_false] at hb
    rw [List.flatMap_cons, ih hmore, encodeChar_eq_three_iff.2 ⟨ha, hb, hd, rfl⟩]
    rfl
  | case16 index a _ _ _ ha b hb d hd e rest he n =>
    rename_i ih
    obtain ⟨more, hmore, rfl⟩ := cons_eq_ok h
    rw [Bool.and_eq_true, decide_eq_true_eq, decide_eq_true_eq] at ha
    rw [Bool.not_eq_true', Bool.not_eq_false] at hb hd
    rw [List.flatMap_cons, ih hmore, encodeChar_eq_four_iff.2 ⟨ha, hb, hd, he, rfl⟩]
    rfl
  | case3 | case5 | case6 | case7 | case8 | case10 | case11 | case12 | case13 | case14 | case15
  | case17 | case18 => cases h

/-- A character takes one to four bytes. -/
theorem encodeChar_cases (c : Char) :
    (∃ a, utf8EncodeChar c = [a]) ∨ (∃ a b, utf8EncodeChar c = [a, b]) ∨
      (∃ a b d, utf8EncodeChar c = [a, b, d]) ∨ ∃ a b d e, utf8EncodeChar c = [a, b, d, e] := by
  rw [encodeChar_eq]
  split_ifs
  · exact .inl ⟨_, rfl⟩
  · exact .inr (.inl ⟨_, _, rfl⟩)
  · exact .inr (.inr (.inl ⟨_, _, _, rfl⟩))
  · exact .inr (.inr (.inr ⟨_, _, _, _, rfl⟩))

/-- The bytes of a character are decoded to that character. -/
theorem decodeFrom_encodeChar (index : Nat) (c : Char) (rest : List UInt8) :
    ∃ next, decodeFrom index (utf8EncodeChar c ++ rest) =
      do return c :: (← decodeFrom next rest) := by
  rcases encodeChar_cases c with ⟨a, h⟩ | ⟨a, b, h⟩ | ⟨a, b, d, h⟩ | ⟨a, b, d, e, h⟩
  · obtain ⟨ha, hc⟩ := encodeChar_eq_one_iff.1 h
    refine ⟨index + 1, ?_⟩
    rw [h, List.singleton_append, decodeFrom.eq_def]
    simp only [if_pos ha, ← hc]
  · obtain ⟨ha, hb, hc⟩ := encodeChar_eq_two_iff.1 h
    have hone : ¬ a < 0x80 := not_lt.2 (le_trans (b := 0xc2) (by decide) ha.1)
    refine ⟨index + 2, ?_⟩
    rw [h, List.cons_append, List.singleton_append, decodeFrom.eq_def]
    simp [hone, ha, hb, ← hc]
  · obtain ⟨ha, hb, hd, hc⟩ := encodeChar_eq_three_iff.1 h
    have hone : ¬ a < 0x80 := not_lt.2 (le_trans (b := 0xe0) (by decide) ha.1)
    have htwo : ¬ a ≤ 0xdf := not_le.2 (lt_of_lt_of_le (b := 0xe0) (by decide) ha.1)
    refine ⟨index + 3, ?_⟩
    rw [h, List.cons_append, List.cons_append, List.singleton_append, decodeFrom.eq_def]
    simp [hone, htwo, ha, hb, hd, ← hc]
  · obtain ⟨ha, hb, hd, he, hc⟩ := encodeChar_eq_four_iff.1 h
    have hone : ¬ a < 0x80 := not_lt.2 (le_trans (b := 0xf0) (by decide) ha.1)
    have htwo : ¬ a ≤ 0xdf := not_le.2 (lt_of_lt_of_le (b := 0xf0) (by decide) ha.1)
    have hthree : ¬ a ≤ 0xef := not_le.2 (lt_of_lt_of_le (b := 0xf0) (by decide) ha.1)
    refine ⟨index + 4, ?_⟩
    rw [h, List.cons_append, List.cons_append, List.cons_append, List.singleton_append,
      decodeFrom.eq_def]
    simp [hone, htwo, hthree, ha, hb, hd, he, ← hc]

/-- The bytes of a text are decoded to that text. -/
theorem decodeFrom_encode (index : Nat) (cs : List Char) :
    decodeFrom index (cs.flatMap utf8EncodeChar) = .ok cs := by
  induction cs generalizing index with
  | nil => rfl
  | cons c cs ih =>
    obtain ⟨next, hnext⟩ := decodeFrom_encodeChar index c (cs.flatMap utf8EncodeChar)
    rw [List.flatMap_cons, hnext, ih]
    rfl

/-- The bytes of a text are those of its characters, one after the other. -/
theorem toUTF8_eq_flatMap (text : String) :
    text.toUTF8.data.toList = text.toList.flatMap utf8EncodeChar := by
  rw [String.toUTF8, ← String.utf8Encode_toList, List.utf8Encode, List.data_toByteArray]

/-- **Decoding inverts encoding**: bytes are decoded to the text that encodes to them, and refused
if there is none. -/
theorem decode_eq_ok_iff {bytes : List UInt8} {text : String} :
    decode bytes = .ok text ↔ text.toUTF8.data.toList = bytes := by
  rw [toUTF8_eq_flatMap, decode]
  constructor
  · intro h
    cases hd : decodeFrom 0 bytes with
    | error e =>
      rw [hd] at h
      cases h
    | ok cs =>
      rw [hd] at h
      cases h
      rw [String.toList_ofList, encode_of_decodeFrom hd]
  · rintro rfl
    rw [decodeFrom_encode]
    exact congrArg Except.ok String.ofList_toList

end SolidityScan.Utf8
