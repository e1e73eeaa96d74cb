/-
# The written form of source ranges

A range is written as numbers between colons.  Reading is more liberal than writing: the file may be
left out, numbers may have blanks around them, signs and leading zeros, and any negative index
stands for an unknown file.  Offsets and lengths have one bit more than the indices that are read,
so a range with a large index has a written form that is not read again.

* `SourceRange.Written` : the texts that denote a range;
* `SourceRange.parse?_eq_some_iff` : reading accepts these texts and no others;
* `SourceRange.parse?_text` : which ranges are read back from the form that they are written in;
* `SyntaxNode.parseRange_exact` : all about reading and writing ranges.
-/
import Mathlib.Algebra.Group.Int.Defs
import Mathlib.Algebra.Group.Nat.Defs
import SolidityScan.Proofs.Text.Numerals
import SolidityScan.Proofs.Text.Pieces
import SolidityScan.Tree.Intake

namespace SolidityScan

open Text

namespace SourceRange

/-! ## Texts that denote ranges -/

/-- The part denotes an offset or a length, with blanks around it. -/
def IsAmount (part : List Char) (n : Nat) : Prop :=
  ∃ content, Trims part content ∧ IsUnsigned content n ∧ n < 2 ^ 64

/-- The part denotes a file, with blanks around its index; a negative index stands for an unknown
file. -/
def IsFile (part : List Char) (file : Option Nat) : Prop :=
  ∃ content i, Trims part content ∧ IsSigned content i ∧ -2 ^ 63 ≤ i ∧ i < 2 ^ 63 ∧
    file = if i < 0 then none else some i.toNat

/-- The text denotes the range: its parts between colons are the offset, the length and possibly the
file. -/
inductive Written (text : String) (r : SourceRange) : Prop where
  | short {offset length : List Char} : text.toList.splitOn ':' = [offset, length] →
      IsAmount offset r.offset → IsAmount length r.length → r.file = none → Written text r
  | full {offset length file : List Char} : text.toList.splitOn ':' = [offset, length, file] →
      IsAmount offset r.offset → IsAmount length r.length → IsFile file r.file → Written text r

theorem number?_eq_some_iff {part : List Char} {n : Nat} :
    number? part = some n ↔ IsAmount part n := by
  rw [number?, unsigned?_eq_some_iff]
  constructor
  · rintro ⟨hnumber, hlt⟩
    exact ⟨trim part, trims_trim part, hnumber, hlt⟩
  · rintro ⟨content, htrims, hnumber, hlt⟩
    rw [htrims.trim_eq]
    exact ⟨hnumber, hlt⟩

/-- An index stands for a file unless it is negative. -/
theorem fileOf_eq (i : Int) :
    (match i with | .ofNat n => some n | .negSucc _ => none) =
      if i < 0 then none else some i.toNat := by
  cases i with
  | ofNat n => rfl
  | negSucc n => rw [if_pos (Int.negSucc_lt_zero n)]

theorem index?_eq_some_iff {part : List Char} {file : Option Nat} :
    index? part = some file ↔ IsFile part file := by
  rw [index?, Option.map_eq_some_iff]
  simp only [signed?_eq_some_iff (show 0 < indexBound by decide)]
  constructor
  · rintro ⟨i, ⟨hindex, hlow, hhigh⟩, rfl⟩
    exact ⟨trim part, i, trims_trim part, hindex, hlow, hhigh, fileOf_eq i⟩
  · rintro ⟨content, i, htrims, hindex, hlow, hhigh, rfl⟩
    rw [htrims.trim_eq]
    exact ⟨i, ⟨hindex, hlow, hhigh⟩, fileOf_eq i⟩

/-- **Reading accepts the texts that denote a range, and no others.** -/
theorem parse?_eq_some_iff {text : String} {r : SourceRange} :
    parse? text = some r ↔ Written text r := by
  unfold parse?
  rw [split_eq_splitOn]
  constructor
  · intro h
    split at h
    · next offset length hparts =>
      obtain ⟨o, ho, h⟩ := Option.bind_eq_some_iff.1 h
      obtain ⟨l, hl, h⟩ := Option.bind_eq_some_iff.1 h
      cases h
      exact .short hparts (number?_eq_some_iff.1 ho) (number?_eq_some_iff.1 hl) rfl
    · next offset length file hparts =>
      obtain ⟨o, ho, h⟩ := Option.bind_eq_some_iff.1 h
      obtain ⟨l, hl, h⟩ := Option.bind_eq_some_iff.1 h
      obtain ⟨i, hi, h⟩ := Option.bind_eq_some_iff.1 h
      cases h
      exact .full hparts (number?_eq_some_iff.1 ho) (number?_eq_some_iff.1 hl)
        (index?_eq_some_iff.1 hi)
    · cases h
  · intro h
    cases r with
    | mk offset length file =>
      cases h with
      | short hparts ho hl hfile =>
        cases hfile
        rw [hparts]
        simp only [number?_eq_some_iff.2 ho, number?_eq_some_iff.2 hl]
        rfl
      | full hparts ho hl hfile =>
        rw [hparts]
        simp only [number?_eq_some_iff.2 ho, number?_eq_some_iff.2 hl, index?_eq_some_iff.2 hfile]
        rfl

/-! ## Reading what is written -/

/-- All numbers of the range fit into a machine word. -/
structure Fits (r : SourceRange) : Prop where
  offset : r.offset < 2 ^ 64
  length : r.length < 2 ^ 64
  file : ∀ index, r.file = some index → index < 2 ^ 64

/-- The digits of the index of a file. -/
def fileDigits : Option Nat → List Char
  | some index => Nat.toDigits 10 index
  | none => ['-', '1']

theorem toList_text (r : SourceRange) :
    r.text.toList = [':'].intercalate
      [Nat.toDigits 10 r.offset, Nat.toDigits 10 r.length, fileDigits r.file] := by
  have hcolon : (toString ":").toList = [':'] := rfl
  have hunknown : (toString ":-1").toList = [':', '-', '1'] := rfl
  cases hfile : r.file with
  | none =>
    simp [text, hfile, fileDigits, List.intercalate, Nat.toString_eq_repr, hcolon, hunknown]
  | some index => simp [text, hfile, fileDigits, List.intercalate, Nat.toString_eq_repr, hcolon]

theorem not_isBlank_of_mem_toDigits {n : Nat} : ∀ c ∈ Nat.toDigits 10 n, isBlank c = false :=
  fun c hc => not_isBlank_of_isDigit ((isDecimal_toDigits n).digits c hc)

theorem splitOn_text (r : SourceRange) :
    r.text.toList.splitOn ':' =
      [Nat.toDigits 10 r.offset, Nat.toDigits 10 r.length, fileDigits r.file] := by
  have hdigits : ∀ n, ':' ∉ Nat.toDigits 10 n := by
    intro n hmem
    exact absurd ((isDecimal_toDigits n).digits _ hmem) (by decide)
  have hfile : ':' ∉ fileDigits r.file := by
    cases r.file with
    | none => exact (by decide : ':' ∉ ['-', '1'])
    | some index => exact hdigits index
  rw [toList_text, List.splitOn_intercalate _ _ (List.cons_ne_nil _ _)]
  simp [hdigits, hfile]

theorem isAmount_toDigits {n : Nat} (h : n < 2 ^ 64) : IsAmount (Nat.toDigits 10 n) n :=
  ⟨_, trims_self not_isBlank_of_mem_toDigits, .plain (isDecimal_toDigits n), h⟩

theorem isFile_fileDigits {file : Option Nat} (h : ∀ index, file = some index → index < 2 ^ 63) :
    IsFile (fileDigits file) file := by
  cases file with
  | none =>
    have hone : IsDecimal ['1'] 1 := isDecimal_toDigits 1
    have hblank : ∀ c ∈ ['-', '1'], isBlank c = false := by simp [isBlank, blankRanges, inRanges]
    exact ⟨['-', '1'], -1, trims_self hblank, .minus rfl hone rfl, by decide, by decide, rfl⟩
  | some index =>
    have hlt := h index rfl
    refine ⟨_, index, trims_self not_isBlank_of_mem_toDigits,
      .unsigned (.plain (isDecimal_toDigits index)) rfl, by omega, by omega, ?_⟩
    rw [if_neg (by omega), Int.toNat_natCast]

/-- An index that is too large is not read, although it is written. -/
theorem not_isFile_toDigits {index : Nat} (h : 2 ^ 63 ≤ index) (file : Option Nat) :
    ¬ IsFile (Nat.toDigits 10 index) file := by
  rintro ⟨content, i, htrims, hsigned, -, hhigh, -⟩
  have hcontent := (trims_self (not_isBlank_of_mem_toDigits (n := index))).trim_eq
  rw [htrims.trim_eq] at hcontent
  subst hcontent
  have hdecimal := isDecimal_toDigits index
  -- digits have no sign, so the index that is read is the one that was written
  cases hsigned with
  | unsigned hunsigned hi =>
    cases hunsigned with
    | plain hplain =>
      have heq := hplain.value.symm.trans hdecimal.value
      omega
    | plus heq _ => exact hdecimal.head_ne rfl heq
  | minus heq _ _ => exact hdecimal.head_ne rfl heq

/-- What is read fits, with an index below the bound for these. -/
theorem Written.fits {text : String} {r : SourceRange} (h : Written text r) :
    r.Fits ∧ ∀ index, r.file = some index → index < 2 ^ 63 := by
  have hamounts : r.offset < 2 ^ 64 ∧ r.length < 2 ^ 64 := by
    cases h with
    | short _ ho hl _ => exact ⟨ho.choose_spec.2.2, hl.choose_spec.2.2⟩
    | full _ ho hl _ => exact ⟨ho.choose_spec.2.2, hl.choose_spec.2.2⟩
  have hindex : ∀ index, r.file = some index → index < 2 ^ 63 := by
    intro index hfile
    cases h with
    | short _ _ _ hnone =>
      rw [hnone] at hfile
      cases hfile
    | full _ _ _ hread =>
      obtain ⟨content, i, -, -, -, hhigh, heq⟩ := hread
      rw [hfile] at heq
      split_ifs at heq
      have hvalue := Option.some.inj heq
      omega
  exact ⟨⟨hamounts.1, hamounts.2, fun index hfile => (hindex index hfile).trans (by decide)⟩,
    hindex⟩

/-- **A range is read back from its written form, if its index is below the bound.** -/
theorem parse?_text {r : SourceRange} (h : r.Fits)
    (hindex : ∀ index, r.file = some index → index < 2 ^ 63) : parse? r.text = some r :=
  parse?_eq_some_iff.2 (.full (splitOn_text r) (isAmount_toDigits h.offset)
    (isAmount_toDigits h.length) (isFile_fileDigits hindex))

theorem parse?_text_eq_none {r : SourceRange} {index : Nat} (hfile : r.file = some index)
    (hindex : 2 ^ 63 ≤ index) : parse? r.text = none := by
  rw [Option.eq_none_iff_forall_ne_some]
  intro r' hr'
  have hparts := splitOn_text r
  cases parse?_eq_some_iff.1 hr' with
  | short heq _ _ _ =>
    rw [hparts] at heq
    cases heq
  | full heq _ _ hread =>
    rw [hparts, hfile] at heq
    cases heq
    exact not_isFile_toDigits hindex _ hread

end SourceRange

namespace SyntaxNode

open SourceRange

theorem parseRange_eq_ok_iff {text : String} {r : SourceRange} :
    parseRange text = .ok r ↔ parse? text = some r := by
  unfold parseRange
  cases parse? text with
  | none => simp
  | some r' => simp

theorem parseRange_of_none {text : String} (h : parse? text = none) :
    parseRange text = .error (.malformedRange text) := by
  rw [parseRange, h]

/-- **Reading and writing ranges.**  A text is read exactly if it denotes a range, and as this
range; any other is malformed.  The written form of a range is read as the range, unless its index
is too large, when it is malformed.  So what is read from a text is also read from its written
form. -/
theorem parseRange_exact :
    (∀ text r, parseRange text = .ok r ↔ Written text r) ∧
    (∀ text, (∀ r, ¬ Written text r) → parseRange text = .error (.malformedRange text)) ∧
    (∀ r : SourceRange, r.Fits → (∀ index, r.file = some index → index < 2 ^ 63) →
      parseRange r.text = .ok r) ∧
    (∀ (r : SourceRange) (index : Nat), r.file = some index → 2 ^ 63 ≤ index →
      parseRange r.text = .error (.malformedRange r.text)) ∧
    ∀ text r, parseRange text = .ok r → parseRange r.text = .ok r := by
  refine ⟨?_, ?_, ?_, ?_, ?_⟩
  · intro text r
    rw [parseRange_eq_ok_iff, parse?_eq_some_iff]
  · intro text hnone
    refine parseRange_of_none (Option.eq_none_iff_forall_ne_some.2 fun r hr => ?_)
    exact hnone r (parse?_eq_some_iff.1 hr)
  · intro r hfits hindex
    exact parseRange_eq_ok_iff.2 (parse?_text hfits hindex)
  · intro r index hfile hindex
    exact parseRange_of_none (parse?_text_eq_none hfile hindex)
  · intro text r hr
    obtain ⟨hfits, hindex⟩ := (parse?_eq_some_iff.1 (parseRange_eq_ok_iff.1 hr)).fits
    exact parseRange_eq_ok_iff.2 (parse?_text hfits hindex)

/-- Blanks, signs and zeros are read and not written again; the first index that is too large. -/
theorem parseRange_exact_liberal :
    Written " +007:12\u00a0:-0" ⟨7, 12, some 0⟩ ∧
      parseRange (SourceRange.mk 7 12 (some 0)).text = .ok ⟨7, 12, some 0⟩ ∧
      parseRange (SourceRange.mk 0 1 (some (2 ^ 63))).text =
        .error (.malformedRange "0:1:9223372036854775808") := by
  obtain ⟨hread, -, -, hlarge, hagain⟩ := parseRange_exact
  have hliberal : parseRange " +007:12\u00a0:-0" = .ok ⟨7, 12, some 0⟩ := by decide +kernel
  exact ⟨(hread _ _).1 hliberal, hagain _ _ hliberal,
    hlarge ⟨0, 1, some (2 ^ 63)⟩ _ rfl (Nat.le_refl _)⟩

end SyntaxNode

end SolidityScan
