/-
# Letters: words, digits and case

The character classes that patterns use, and the set of letters that differ from a letter by case
only.
-/
import SolidityScan.Text.CodeRange
import SolidityScan.Text.WordTable
import SolidityScan.Text.FoldTable

namespace SolidityScan.Text

/-! ## Words and digits -/

/-- A character that belongs to a word; below 128 these are letters, digits and the underscore. -/
def isWord (c : Char) : Bool :=
  if c.toNat < 128 then c.isAlphanum || c == '_' else inRanges wordRanges c

/-- A decimal digit of any script. -/
def isDigit (c : Char) : Bool :=
  if c.toNat < 128 then c.isDigit else inRanges digitRanges c

/-! ## Case -/

/-- The run holds the code point. -/
def FoldRun.contains (r : FoldRun) (n : Nat) : Bool :=
  decide (r.first ≤ n) && decide (n ≤ r.last) && (n - r.first) % r.step == 0

/-- The code point that stands for all case forms of `n`. -/
def foldCode (n : Nat) : Nat :=
  match foldRuns.find? (·.contains n) with
  | some r => (n + r.shift).toNat
  | none => n

/-- The letters that fold as `c` does, `c` among them. -/
def caseForms (c : Char) : List Char :=
  let target := foldCode c.toNat
  let sources := foldRuns.filterMap fun r =>
    let n := ((target : Int) - r.shift).toNat
    if r.contains n then some (Char.ofNat n) else none
  Char.ofNat target :: sources

end SolidityScan.Text
