/-
# Detectors are independent

What a detector contributes to a report does not depend on which other detectors run.  A scan with
fewer detectors gives the report of a scan with more, less the lines of those left out: the same
lines in the same order, whatever the others find and however they fail.
-/
import SolidityScan.Proofs.Registry
import SolidityScan.Proofs.Scan.Order
import SolidityScan.Proofs.Scan.Pairs

namespace SolidityScan

namespace ScanOutcome

/-- The part of an outcome that concerns the detectors with the given identifiers. -/
def restrict (o : ScanOutcome) (ids : List String) : ScanOutcome where
  findings := o.findings.filter fun x => decide (x.detector ∈ ids)
  diagnostics := o.diagnostics.filter fun x => decide (x.detector ∈ ids)

/-- A part of what was put in order is that part, put in order. -/
theorem restrict_sorted (findings : List Finding) (diagnostics : List Diagnostic)
    (ids : List String) :
    (sorted findings diagnostics).restrict ids =
      sorted (findings.filter fun x => decide (x.detector ∈ ids))
        (diagnostics.filter fun x => decide (x.detector ∈ ids)) := by
  unfold restrict sorted
  rw [Finding.filter_sort, Diagnostic.filter_sort]

end ScanOutcome

namespace Engine

/-- Only two of the settings matter for what is gathered. -/
theorem gathered_congr {c c' : Config} (htimeout : c.timeout = c'.timeout)
    (hsnippets : c.snippets = c'.snippets) (clock : Clock) (b : Batch)
    (detectors : List Detector) :
    gatheredFindings clock c b detectors = gatheredFindings clock c' b detectors ∧
      gatheredDiagnostics clock c b detectors = gatheredDiagnostics clock c' b detectors := by
  unfold gatheredFindings gatheredDiagnostics
  simp only [contributionOf_congr htimeout hsnippets, and_self]

/-- **Detectors are independent.**  If every detector of one scan runs in another as well, under
the same limit of time and the same wish for snippets, the first report is the part of the second
that concerns these detectors.  The scans may differ in their catalogs, in the detectors that are
switched off, and in the least tier that is reported.  They share one clock: a detector takes as
long on a file in the one as in the other. -/
theorem run_eq_restrict {r r' : Registry} {c c' : Config}
    (htimeout : c.timeout = c'.timeout) (hsnippets : c.snippets = c'.snippets)
    (hsub : r.enabled c ⊆ r'.enabled c') (clock : Clock) (b : Batch) :
    run clock c r b = (run clock c' r' b).restrict ((r.enabled c).map (·.id)) := by
  have henabled := Registry.enabled_eq_filter hsub
  obtain ⟨hfindings, hdiagnostics⟩ := gathered_congr htimeout hsnippets clock b (r.enabled c)
  rw [run_eq_sorted, run_eq_sorted, ScanOutcome.restrict_sorted,
    filter_gatheredFindings b fun id => decide (id ∈ (r.enabled c).map (·.id)),
    filter_gatheredDiagnostics b fun id => decide (id ∈ (r.enabled c).map (·.id)),
    ← henabled, hfindings, hdiagnostics]

/-- A detector that reports the first byte of every file with a tree. -/
def steadyDetector : Detector where
  id := "steady"
  title := "First byte"
  description := "Reports where a file starts."
  severity := .low
  matcher := .structural fun f => .hits [{ range := f.range 0 1 }]

/-- A detector that fails on every file with a tree. -/
def failingDetector : Detector where
  id := "failing"
  title := "Fails"
  description := "Reports that it cannot go on."
  severity := .high
  matcher := .structural fun _ => .failed (.foreign "unexpected input")

/-- The registry of both. -/
def failingRegistry : Registry where
  detectors := [failingDetector, steadyDetector]
  ascending := by decide

/-- A batch of one file with a tree. -/
def plantedBatch : Batch where
  files := [{ path := "a.sol", text := "x", tree := .present default, sourceId := some 0 }]

theorem run_eq_restrict_failing :
    (Registry.single steadyDetector).enabled {} ⊆ failingRegistry.enabled {} ∧
      run (fun _ _ => 0) {} (.single steadyDetector) plantedBatch =
        (run (fun _ _ => 0) {} failingRegistry plantedBatch).restrict ["steady"] := by
  have hsub : (Registry.single steadyDetector).enabled {} ⊆ failingRegistry.enabled {} :=
    List.subset_cons_self failingDetector [steadyDetector]
  exact ⟨hsub, run_eq_restrict rfl rfl hsub _ _⟩

end Engine

end SolidityScan
