/-
# Positions of offsets

The line index of a text gives a position to every offset up to the end of the text and to no
other, so that an offset fails to resolve exactly if it lies past the end.

* `LineIndex.lineColumn?_eq_none_iff` : the index knows the offsets up to the end of the text;
* `LineIndex.lineColumn?_mono` : a later offset never has an earlier line or column;
* `SourceFile.resolve_eq_error_iff`, `SourceFile.exists_resolve_eq_ok` : so do files.
-/
import Mathlib.Data.List.Basic
import SolidityScan.Source.File

namespace SolidityScan

namespace LineIndex

/-- Some line starts at or before every offset, and it is one of the lines of the text. -/
theorem exists_start (x : LineIndex) (offset : Nat) :
    ∃ start, x.starts[x.starts.countP (· ≤ offset) - 1]? = some start := by
  have hpos : 0 < x.starts.countP (· ≤ offset) :=
    List.countP_pos_iff.2 ⟨0, List.mem_of_getElem? x.first, by simp⟩
  have hle : x.starts.countP (· ≤ offset) ≤ x.starts.length := List.countP_le_length
  exact ⟨_, List.getElem?_eq_getElem (by omega)⟩

/-- An index has no position past the end of its text, and one for every other offset. -/
theorem lineColumn?_eq_none_iff (x : LineIndex) (offset : Nat) :
    x.lineColumn? offset = none ↔ x.size < offset := by
  obtain ⟨start, hstart⟩ := x.exists_start offset
  unfold lineColumn?
  by_cases h : x.size < offset
  · simp [h]
  · simp [h, hstart]

/-- The line of an offset is counted by the line starts up to it, and its column from the last of
them. -/
theorem lineColumn?_eq_some {x : LineIndex} {offset : Nat} {place : Nat × Nat}
    (h : x.lineColumn? offset = some place) :
    ∃ start, x.starts[x.starts.countP (· ≤ offset) - 1]? = some start ∧
      place = (x.starts.countP (· ≤ offset), offset - start + 1) := by
  unfold lineColumn? at h
  by_cases hpast : x.size < offset
  · simp [hpast] at h
  · cases hstart : x.starts[x.starts.countP (· ≤ offset) - 1]? with
    | none => simp [hpast, hstart] at h
    | some start => exact ⟨start, rfl, by simpa [hpast, hstart, eq_comm] using h⟩

/-- Going on in a text never leads back to an earlier line, nor to an earlier column of a line. -/
theorem lineColumn?_mono {x : LineIndex} {a b : Nat} {p q : Nat × Nat} (hab : a ≤ b)
    (hp : x.lineColumn? a = some p) (hq : x.lineColumn? b = some q) :
    p.1 < q.1 ∨ p.1 = q.1 ∧ p.2 ≤ q.2 := by
  obtain ⟨start, hstart, rfl⟩ := lineColumn?_eq_some hp
  obtain ⟨start', hstart', rfl⟩ := lineColumn?_eq_some hq
  have hcount : x.starts.countP (· ≤ a) ≤ x.starts.countP (· ≤ b) := by
    refine List.countP_mono_left ?_
    intro s _ hs
    simp only [decide_eq_true_eq] at hs ⊢
    omega
  rcases Nat.lt_or_eq_of_le hcount with hlt | heq
  · exact Or.inl hlt
  · -- on the same line both columns are counted from the same start
    rw [heq, hstart'] at hstart
    cases hstart
    refine Or.inr ⟨heq, ?_⟩
    dsimp only
    omega

end LineIndex

namespace SourceFile

/-- An offset past the end of a file does not resolve, and the error names the file, the offset and
the size. -/
theorem resolve_eq_error_iff (f : SourceFile) (offset : Nat) (e : EngineError) :
    f.resolve offset = .error e ↔
      f.size < offset ∧ e = .positionResolution f.path offset f.size := by
  have hnone : f.lines.lineColumn? offset = none ↔ f.size < offset :=
    f.lines.lineColumn?_eq_none_iff offset
  unfold resolve
  cases h : f.lines.lineColumn? offset with
  | none =>
    rw [h] at hnone
    simp [hnone.1 rfl, eq_comm]
  | some place =>
    rw [h] at hnone
    have hle : ¬ f.size < offset := fun hlt => by simpa using hnone.2 hlt
    simp [hle]

/-- Every other offset resolves to a position in the file. -/
theorem exists_resolve_eq_ok {f : SourceFile} {offset : Nat} (h : offset ≤ f.size) :
    ∃ position, f.resolve offset = .ok position := by
  cases hr : f.resolve offset with
  | ok position => exact ⟨position, rfl⟩
  | error e =>
    have hlt := ((f.resolve_eq_error_iff offset e).1 hr).1
    omega

theorem resolve_path {f : SourceFile} {offset : Nat} {position : Position}
    (h : f.resolve offset = .ok position) : position.path = f.path := by
  unfold resolve at h
  split at h
  · cases h
    rfl
  · cases h

end SourceFile

end SolidityScan
