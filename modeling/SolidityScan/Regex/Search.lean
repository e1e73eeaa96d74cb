/-
# Searching a text for matches

A search goes through the places of a text from left to right and takes the first one with a
match.  It adds up the branches that were given up on the way, and fails when they exceed the
budget.
-/
import SolidityScan.Regex.Machine

namespace SolidityScan

/-- A stretch of text that a pattern matches, as byte offsets of its ends. -/
structure Match where
  start : Nat
  stop : Nat
deriving DecidableEq, Repr

/-- A search gave up because it abandoned more branches than its budget allows. -/
inductive SearchError where
  | budgetExceeded
deriving DecidableEq, Repr

namespace SearchError

/-- The text of the error. -/
def message : SearchError → String
  | budgetExceeded => "Error executing regex: Max limit for backtracking count exceeded"

end SearchError

namespace Cell

/-- The first match at one of the places, and the places after its start; `spent` branches have
been given up so far. -/
def find (budget : Nat) : Nat → List Cell → Except SearchError (Option (Match × List Cell))
  | spent, [] => if budget < spent then .error .budgetExceeded else .ok none
  | spent, c :: rest =>
    match c.trial.stop with
    | none => find budget (spent + c.trial.abandoned) rest
    | some stop =>
      if budget < spent + c.trial.abandoned then .error .budgetExceeded
      else .ok (some (⟨c.offset, stop⟩, rest))

/-- The places that follow a match are fewer than those searched. -/
theorem length_lt_of_find {budget spent : Nat} {cells rest : List Cell} {m : Match}
    (h : find budget spent cells = .ok (some (m, rest))) : rest.length < cells.length := by
  induction cells generalizing spent with
  | nil => simp only [find] at h; split at h <;> simp at h
  | cons c cs ih =>
    simp only [find] at h
    split at h
    · have := ih h
      simp only [List.length_cons]
      omega
    · split at h
      · simp at h
      · simp only [Except.ok.injEq, Option.some.injEq, Prod.mk.injEq] at h
        simp [h.2]

/-- The places from an offset on. -/
def dropBefore (offset : Nat) (cells : List Cell) : List Cell :=
  cells.dropWhile (·.offset < offset)

theorem length_dropBefore_le (offset : Nat) (cells : List Cell) :
    (dropBefore offset cells).length ≤ cells.length :=
  (List.dropWhile_suffix _).length_le

end Cell

/-- The places to search after a match: from its end on, and past its start if it is empty. -/
def Match.next (m : Match) (rest : List Cell) : List Cell :=
  if m.start = m.stop then rest else Cell.dropBefore m.stop rest

theorem Match.length_next_le (m : Match) (rest : List Cell) :
    (m.next rest).length ≤ rest.length := by
  unfold Match.next
  split
  · exact Nat.le_refl _
  · exact Cell.length_dropBefore_le _ _

end SolidityScan
