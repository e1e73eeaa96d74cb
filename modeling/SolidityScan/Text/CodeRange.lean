/-
# Ranges of code points

A character property is given by a list of inclusive ranges of code points, and a character has
the property when one of the ranges holds its code point.
-/

namespace SolidityScan.Text

/-- The character lies in one of the inclusive ranges of code points. -/
def inRanges (ranges : List (Nat × Nat)) (c : Char) : Bool :=
  ranges.any fun r => decide (r.1 ≤ c.toNat) && decide (c.toNat ≤ r.2)

theorem inRanges_iff {ranges : List (Nat × Nat)} {c : Char} :
    inRanges ranges c = true ↔ ∃ r ∈ ranges, r.1 ≤ c.toNat ∧ c.toNat ≤ r.2 := by
  simp [inRanges]

end SolidityScan.Text
