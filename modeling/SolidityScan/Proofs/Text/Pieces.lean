/-
# Pieces and ends of texts

What cutting a text at separators and trimming its ends leave of it.

* `split_eq_splitOn` : the pieces between separators, none of which holds one, join to the text;
* `trims_trim`, `Trims.trim_eq` : trimming takes away blanks only, and leaves none at the ends.
-/
import Mathlib.Data.List.DropRight
import SolidityScan.Text.Blank
import SolidityScan.Text.Slice

namespace SolidityScan.Text

/-! ## Pieces -/

theorem split_eq_splitOn (separator : Char) (cs : List Char) :
    split separator cs = cs.splitOn separator := by
  induction cs with
  | nil => rfl
  | cons c cs ih =>
    rw [split, List.splitOn_cons_eq_if_modifyHead, ← ih]
    by_cases hc : c = separator
    · rw [if_pos hc, if_pos (beq_iff_eq.2 hc)]
    · rw [if_neg hc, if_neg (mt beq_iff_eq.1 hc)]
      cases hsplit : split separator cs with
      | nil => exact absurd (ih.symm.trans hsplit) (List.splitOn_ne_nil _ _)
      | cons piece pieces => rfl

/-- The pieces, joined by the separator, are the text. -/
theorem intercalate_split (separator : Char) (cs : List Char) :
    [separator].intercalate (split separator cs) = cs := by
  rw [split_eq_splitOn, List.intercalate_splitOn]

theorem not_mem_of_mem_split {separator : Char} {cs piece : List Char}
    (h : piece ∈ split separator cs) : separator ∉ piece := by
  induction cs generalizing piece with
  | nil =>
    rw [List.mem_singleton.1 h]
    exact List.not_mem_nil
  | cons c cs ih =>
    rw [split] at h
    split_ifs at h with hc
    · rcases List.mem_cons.1 h with rfl | h
      · exact List.not_mem_nil
      · exact ih h
    · split at h
      · rw [List.mem_singleton.1 h]
        exact fun hmem => hc (List.mem_singleton.1 hmem).symm
      · next first rest hsplit =>
        rcases List.mem_cons.1 h with rfl | h
        · have hfirst := ih (hsplit ▸ List.mem_cons_self)
          rintro (_ | ⟨_, hmem⟩)
          · exact hc rfl
          · exact hfirst hmem
        · exact ih (hsplit ▸ List.mem_cons_of_mem _ h)

/-- There is one piece more than there are separators. -/
theorem length_split (separator : Char) (cs : List Char) :
    (split separator cs).length = cs.count separator + 1 := by
  induction cs with
  | nil => rfl
  | cons c cs ih =>
    rw [split]
    by_cases hc : c = separator
    · rw [if_pos hc, hc, List.length_cons, ih, List.count_cons_self]
    · rw [if_neg hc, List.count_cons_of_ne hc]
      cases hsplit : split separator cs with
      | nil =>
        rw [hsplit] at ih
        cases ih
      | cons piece pieces =>
        rw [hsplit] at ih
        exact ih

/-! ## Ends -/

/-- The content is the text without the blanks at its ends. -/
structure Trims (text content : List Char) : Prop where
  between : ∃ front back, text = front ++ (content ++ back) ∧
    (∀ c ∈ front, isBlank c = true) ∧ ∀ c ∈ back, isBlank c = true
  head : ∀ c ∈ content.head?, isBlank c = false
  last : ∀ c ∈ content.getLast?, isBlank c = false

/-- **Trimming takes away the blanks at the ends of a text, and nothing else.** -/
theorem trims_trim (cs : List Char) : Trims cs (trim cs) := by
  obtain ⟨back, hback, hblank⟩ :
      ∃ back, trimStart cs = trim cs ++ back ∧ ∀ c ∈ back, isBlank c = true :=
    ⟨(trimStart cs).rtakeWhile isBlank, List.rdropWhile_append_rtakeWhile.symm,
      fun c hc => List.mem_rtakeWhile_imp hc⟩
  refine ⟨⟨cs.takeWhile isBlank, back, ?_, ?_, hblank⟩, ?_, getLast_trimEnd _⟩
  · rw [← hback, trimStart, List.takeWhile_append_dropWhile]
  · exact fun c hc => List.mem_takeWhile_imp hc
  · intro c hc
    refine head_trimStart cs c ?_
    -- what is cut off at the end leaves the first character in its place
    rw [hback]
    exact List.mem_head?_append_of_mem_head? hc

/-- Nothing is left of a text exactly if it is blank. -/
theorem trim_eq_nil_iff {cs : List Char} : trim cs = [] ↔ ∀ c ∈ cs, isBlank c = true := by
  obtain ⟨⟨front, back, hcs, hfront, hback⟩, hhead, -⟩ := trims_trim cs
  constructor
  · intro hnil c hc
    rw [hcs, hnil, List.nil_append] at hc
    exact (List.mem_append.1 hc).elim (hfront c) (hback c)
  · intro hall
    cases htrim : trim cs with
    | nil => rfl
    | cons c rest =>
      rw [htrim] at hcs hhead
      have hblank := hall c (by simp [hcs])
      rw [hhead c rfl] at hblank
      cases hblank

/-- Trimming is known by what it leaves. -/
theorem Trims.trim_eq {text content : List Char} (h : Trims text content) :
    trim text = content := by
  obtain ⟨⟨front, back, rfl, hfront, hback⟩, hhead, hlast⟩ := h
  cases content with
  | nil =>
    refine trim_eq_nil_iff.2 fun c hc => ?_
    rw [List.nil_append] at hc
    exact (List.mem_append.1 hc).elim (hfront c) (hback c)
  | cons c rest =>
    have hstart : trimStart (front ++ (c :: rest ++ back)) = c :: rest ++ back := by
      rw [trimStart, List.dropWhile_append_of_pos hfront, List.cons_append,
        List.dropWhile_cons_of_neg]
      simp [hhead c rfl]
    have hend : trimEnd (c :: rest) = c :: rest := by
      refine List.rdropWhile_eq_self_iff.2 fun hne => ?_
      simp [hlast _ (List.getLast?_eq_getLast_of_ne_nil hne)]
    rw [trim, hstart, trimEnd, List.reverse_append, List.dropWhile_append_of_pos]
    · exact hend
    · exact fun d hd => hback d (List.mem_reverse.1 hd)

/-- Without a blank there is nothing to trim. -/
theorem trims_self {cs : List Char} (h : ∀ c ∈ cs, isBlank c = false) : Trims cs cs where
  between := ⟨[], [], by simp, by simp, by simp⟩
  head c hc := h c (List.mem_of_mem_head? hc)
  last c hc := h c (List.mem_of_mem_getLast? hc)

end SolidityScan.Text
