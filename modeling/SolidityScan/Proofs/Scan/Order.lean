/-
# The order of a report

Findings come in order of tier, detector, path and offset, and diagnostics in an order of their
own.  Here the order of findings is written out, and both orders are shown to put up with
selection: the part of a report that concerns some detectors or files is that part of what was
gathered, sorted by itself.

* `Finding.sort_congr` : of the order in which findings were gathered, a report only keeps the order
  among those of one detector in one file;
* `Diagnostic.sort_eq_of_perm` : of the order of diagnostics it keeps nothing.
-/
import Mathlib.Data.String.Basic
import Mathlib.Order.Compare
import SolidityScan.Proofs.StableSort
import SolidityScan.Scan.Outcome

namespace SolidityScan

namespace Finding

/-- The first finding may stand before the second: it is in a more serious tier; or in the same, and
its detector comes first; or that is the same, and its path comes first; or that is the same as
well, and its offset is not the larger one. -/
def InOrder (x y : Finding) : Prop :=
  y.severity.rank < x.severity.rank ∨ x.severity = y.severity ∧
    (x.detector < y.detector ∨ x.detector = y.detector ∧
      (x.position.path < y.position.path ∨ x.position.path = y.position.path ∧
        x.offset ≤ y.offset))

theorem isBefore_iff_inOrder (x y : Finding) : x.isBefore y = true ↔ x.InOrder y := by
  have hrank : y.severity.rank = x.severity.rank ↔ x.severity = y.severity :=
    ⟨fun h => Severity.rank_injective h.symm, fun h => by rw [h]⟩
  unfold isBefore order InOrder
  simp only [compareLex, compareOn, Ordering.isLE_then_iff_or, compare_lt_iff_lt,
    compare_eq_iff_eq, hrank, Nat.isLE_compare]

/-- The findings of a report stand in order. -/
theorem pairwise_inOrder_sort (findings : List Finding) :
    (sort findings).Pairwise InOrder :=
  (pairwise_sort findings).imp fun {x y} h => (isBefore_iff_inOrder x y).1 h

/-- Selecting findings commutes with putting them in order. -/
theorem filter_sort (p : Finding → Bool) (findings : List Finding) :
    (sort findings).filter p = sort (findings.filter p) := by
  apply StableSort.filter_mergeSort
  · intro a b c hab hbc
    exact isBefore_trans hab hbc
  · exact isBefore_total

/-- Findings that stand in order stay as they are. -/
theorem sort_eq_self {findings : List Finding} (h : findings.Pairwise InOrder) :
    sort findings = findings :=
  List.mergeSort_of_pairwise (h.imp fun {x y} hxy => (isBefore_iff_inOrder x y).2 hxy)

/-- The finding is of the given detector, in the file with the given path. -/
def isAt (detector path : String) (x : Finding) : Bool :=
  decide (x.detector = detector ∧ x.position.path = path)

/-- Findings of which either may stand first are of one detector in one file. -/
theorem isAt_of_isBefore {x y : Finding} (hxy : x.isBefore y = true) (hyx : y.isBefore x = true) :
    y.isAt x.detector x.position.path = true := by
  have heq : order x y = .eq := Std.OrientedCmp.isLE_antisymm hxy hyx
  simp only [order, compareLex, compareOn, Ordering.then_eq_eq, compare_eq_iff_eq] at heq
  obtain ⟨-, hdetector, hpath, -⟩ := heq
  exact decide_eq_true ⟨hdetector.symm, hpath.symm⟩

/-- **Sorting forgets the order in which pairs were gathered.**  Two lists of findings that agree
for each detector in each file are put in the same order. -/
theorem sort_congr {findings findings' : List Finding}
    (h : ∀ detector path,
      findings.filter (isAt detector path) = findings'.filter (isAt detector path)) :
    sort findings = sort findings' := by
  apply StableSort.mergeSort_congr
  · intro a b c hab hbc
    exact isBefore_trans hab hbc
  · exact isBefore_total
  · intro x
    have hties : ∀ l : List Finding, StableSort.ties isBefore x l =
        StableSort.ties isBefore x (l.filter (isAt x.detector x.position.path)) := by
      intro l
      unfold StableSort.ties
      rw [List.filter_filter]
      refine List.filter_congr fun y _ => ?_
      by_cases htie : (x.isBefore y && y.isBefore x) = true
      · rw [Bool.and_eq_true] at htie
        rw [isAt_of_isBefore htie.1 htie.2, Bool.and_true]
      · rw [Bool.eq_false_iff.2 htie, Bool.false_and]
    rw [hties findings, hties findings', h]

end Finding

namespace Diagnostic

/-- Selecting diagnostics commutes with putting them in order. -/
theorem filter_sort (p : Diagnostic → Bool) (diagnostics : List Diagnostic) :
    (sort diagnostics).filter p = sort (diagnostics.filter p) := by
  apply StableSort.filter_mergeSort
  · intro a b c hab hbc
    exact isBefore_trans hab hbc
  · exact isBefore_total

theorem eq_of_order_eq {x y : Diagnostic} (h : order x y = .eq) : x = y := by
  have hrank : ∀ k k' : DiagnosticKind, k.rank = k'.rank → k = k' := by
    intro k k'
    cases k <;> cases k' <;> simp [DiagnosticKind.rank]
  obtain ⟨detector, path, kind, detail⟩ := x
  obtain ⟨detector', path', kind', detail'⟩ := y
  simp only [order, compareLex, compareOn, Ordering.then_eq_eq, compare_eq_iff_eq,
    Std.LawfulEqOrd.compare_eq_iff_eq] at h
  obtain ⟨rfl, rfl, hkind, rfl⟩ := h
  rw [hrank kind kind' hkind]

/-- Diagnostics are put in the same order, however they were gathered. -/
theorem sort_eq_of_perm {diagnostics diagnostics' : List Diagnostic}
    (h : diagnostics.Perm diagnostics') : sort diagnostics = sort diagnostics' := by
  have hperm : (sort diagnostics).Perm (sort diagnostics') :=
    ((sort_perm diagnostics).trans h).trans (sort_perm diagnostics').symm
  refine hperm.eq_of_pairwise ?_ (pairwise_sort diagnostics) (pairwise_sort diagnostics')
  intro x y _ _ hxy hyx
  exact eq_of_order_eq (Std.OrientedCmp.isLE_antisymm hxy hyx)

end Diagnostic

end SolidityScan
