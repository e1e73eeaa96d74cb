/-
# Numerals

A numeral is a run of decimal digits, possibly after a sign.  Reading accepts the numerals whose
value is within the bounds and nothing else, and the decimal digits of a number are a numeral with
this value.

* `IsDecimal`, `IsUnsigned`, `IsSigned` : what counts as a numeral, and its value;
* `unsigned?_eq_some_iff`, `signed?_eq_some_iff` : which texts are read;
* `isDecimal_toDigits` : the digits of a number.
-/
import Mathlib.Data.List.Basic
import SolidityScan.Text.Blank
import SolidityScan.Text.Numeral

namespace SolidityScan.Text

/-! ## Digits -/

/-- The text is a run of decimal digits with the given value. -/
structure IsDecimal (cs : List Char) (n : Nat) : Prop where
  nonempty : cs ≠ []
  digits : ∀ c ∈ cs, c.isDigit = true
  value : Nat.ofDigitChars 10 cs 0 = n

theorem digits?_eq_some_iff {cs : List Char} {n : Nat} : digits? cs = some n ↔ IsDecimal cs n := by
  have hvalue : natOfDigits cs = Nat.ofDigitChars 10 cs 0 := Nat.ofDigitChars_eq_foldl.symm
  unfold digits?
  constructor
  · intro h
    split_ifs at h with hrun
    rw [Bool.or_eq_true, not_or, List.isEmpty_iff, Bool.not_eq_true', Bool.not_eq_false,
      List.all_eq_true] at hrun
    exact ⟨hrun.1, hrun.2, hvalue ▸ Option.some.inj h⟩
  · rintro ⟨hne, hdigits, rfl⟩
    rw [if_neg, hvalue]
    rw [Bool.or_eq_true, not_or, List.isEmpty_iff, Bool.not_eq_true', Bool.not_eq_false,
      List.all_eq_true]
    exact ⟨hne, hdigits⟩

/-- A number is written in digits. -/
theorem isDecimal_toDigits (n : Nat) : IsDecimal (Nat.toDigits 10 n) n where
  nonempty := Nat.toDigits_ne_nil
  digits _ hc := Nat.isDigit_of_mem_toDigits (by decide) (by decide) hc
  value := Nat.ofDigitChars_ten_toDigits

theorem not_isBlank_of_isDigit {c : Char} (h : c.isDigit = true) : isBlank c = false := by
  have hbounds := Char.isDigit_iff_toNat.1 h
  rw [isBlank, ← Bool.not_eq_true, inRanges_iff]
  rintro ⟨range, hrange, hlow, hhigh⟩
  simp only [blankRanges, List.mem_cons, List.not_mem_nil, or_false] at hrange
  have hzero : '0'.toNat = 48 := rfl
  have hnine : '9'.toNat = 57 := rfl
  rcases hrange with rfl | rfl | rfl | rfl | rfl | rfl | rfl | rfl | rfl | rfl <;>
    simp only at hlow hhigh <;> omega

/-! ## Signs -/

/-- The text is a number in digits, after an optional plus sign. -/
inductive IsUnsigned (cs : List Char) (n : Nat) : Prop where
  | plain : IsDecimal cs n → IsUnsigned cs n
  | plus {digits : List Char} : cs = '+' :: digits → IsDecimal digits n → IsUnsigned cs n

/-- The text is a number in digits, after an optional sign. -/
inductive IsSigned (cs : List Char) (i : Int) : Prop where
  | unsigned {n : Nat} : IsUnsigned cs n → i = n → IsSigned cs i
  | minus {digits : List Char} {n : Nat} : cs = '-' :: digits → IsDecimal digits n → i = -n →
      IsSigned cs i

/-- A sign is not a digit. -/
theorem IsDecimal.head_ne {cs : List Char} {n : Nat} (h : IsDecimal cs n) {c : Char}
    {rest : List Char} (hc : c.isDigit = false) : cs ≠ c :: rest := by
  rintro rfl
  rw [h.digits c List.mem_cons_self] at hc
  cases hc

/-- **An unsigned number is read if it is below the bound.** -/
theorem unsigned?_eq_some_iff {bound n : Nat} {cs : List Char} :
    unsigned? bound cs = some n ↔ IsUnsigned cs n ∧ n < bound := by
  unfold unsigned?
  rw [Option.filter_eq_some_iff, digits?_eq_some_iff, decide_eq_true_eq]
  refine and_congr_left fun _ => ?_
  split
  · constructor
    · exact .plus rfl
    · intro h
      cases h with
      | plain h => exact absurd rfl (h.head_ne rfl)
      | plus heq h =>
        cases heq
        exact h
  · next hplain =>
    constructor
    · exact .plain
    · intro h
      cases h with
      | plain h => exact h
      | plus heq _ => exact absurd heq (hplain _)

/-- **A signed number is read if it is within the bounds.** -/
theorem signed?_eq_some_iff {bound : Nat} (hbound : 0 < bound) {cs : List Char} {i : Int} :
    signed? bound cs = some i ↔ IsSigned cs i ∧ -(bound : Int) ≤ i ∧ i < bound := by
  unfold signed?
  split
  · next digits =>
    rw [Option.map_eq_some_iff]
    simp only [Option.bind_eq_bind, Option.bind_eq_some_iff, Option.pure_def, Option.some.injEq,
      Option.filter_eq_some_iff, digits?_eq_some_iff, decide_eq_true_eq]
    constructor
    · rintro ⟨_, ⟨n, ⟨hdigits, hle⟩, rfl⟩, rfl⟩
      exact ⟨.minus rfl hdigits rfl, by omega, by omega⟩
    · rintro ⟨hsigned, hlow, -⟩
      cases hsigned with
      | unsigned h _ =>
        cases h with
        | plain h => exact absurd rfl (h.head_ne rfl)
        | plus heq _ => cases heq
      | minus heq hdigits hi =>
        cases heq
        exact ⟨_, ⟨_, ⟨hdigits, by omega⟩, rfl⟩, hi.symm⟩
  · next hplain =>
    rw [Option.map_eq_some_iff]
    simp only [unsigned?_eq_some_iff]
    constructor
    · rintro ⟨n, ⟨hunsigned, hlt⟩, rfl⟩
      exact ⟨.unsigned hunsigned rfl, Int.le_trans (by omega) (Int.natCast_nonneg n),
        Int.ofNat_lt.2 hlt⟩
    · rintro ⟨hsigned, -, hhigh⟩
      cases hsigned with
      | unsigned h hi => exact ⟨_, ⟨h, by omega⟩, hi.symm⟩
      | minus heq _ _ => exact absurd heq (hplain _)

end SolidityScan.Text
