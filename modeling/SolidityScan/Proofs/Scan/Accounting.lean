/-
# The accounts of a scan

Nothing is lost and nothing is counted twice on the way from the pairs of a scan to its report.
Every hit that counts is shown by exactly one finding, and every fault by exactly one diagnostic:
of an input that was left out once for each detector, of a pair that failed once, and of a hit past
the end of its file once.
-/
import Mathlib.Data.List.Forall2
import Mathlib.Data.List.Perm.Basic
import Mathlib.Data.List.ProdSigma
import SolidityScan.Proofs.Scan.Order
import SolidityScan.Proofs.Scan.Pairs
import SolidityScan.Proofs.Source.Requests

namespace SolidityScan

/-! ## What a line of the report stands for -/

/-- The finding shows the hit: it has the identifier and the tier of the detector, it is in the file
that the hit is in, and it has the offset, the length and the message of the hit. -/
structure Finding.Shows (b : Batch) (s : Sighting) (x : Finding) : Prop where
  detector : x.detector = s.detector.id
  severity : x.severity = s.detector.severity
  path : x.position.path = (s.target b).path
  offset : x.offset = s.hit.range.offset
  length : x.length = s.hit.range.length
  message : x.message = s.hit.message

/-- The diagnostic records a fault of the given kind for a detector and a path. -/
structure Diagnostic.Records (d : Detector) (path : String) (kind : DiagnosticKind)
    (x : Diagnostic) : Prop where
  detector : x.detector = d.id
  path : x.path = some path
  kind : x.kind = kind

namespace Engine

/-- The pairs of a scan: every enabled detector with every file. -/
def pairs (config : Config) (registry : Registry) (b : Batch) : List (Detector × SourceFile) :=
  registry.enabled config ×ˢ b.files

/-- The hits that count in a scan: those of the pairs that succeed. -/
def sightings (clock : Clock) (config : Config) (registry : Registry) (b : Batch) :
    List Sighting :=
  (pairs config registry b).flatMap fun p => sightingsOf clock config p.1 p.2

/-- A pair that failed, with the kind of its fault. -/
structure FailedPair where
  detector : Detector
  file : SourceFile
  kind : DiagnosticKind

/-- The pair, if it failed. -/
def failureOf (clock : Clock) (config : Config) (d : Detector) (f : SourceFile) :
    List FailedPair :=
  match verdict clock config d f with
  | .ok _ => []
  | .error kind => [⟨d, f, kind⟩]

/-- The pairs of a scan that failed. -/
def failedPairs (clock : Clock) (config : Config) (registry : Registry) (b : Batch) :
    List FailedPair :=
  (pairs config registry b).flatMap fun p => failureOf clock config p.1 p.2

/-- The outcome accounts for all that happens in a scan, line by line and in order. -/
structure Accounted (clock : Clock) (config : Config) (registry : Registry) (b : Batch)
    (outcome : ScanOutcome) : Prop where
  /-- One finding for each hit of a pair that succeeded. -/
  findings : ∃ shown, List.Forall₂ (Finding.Shows b) (sightings clock config registry b) shown ∧
    outcome.findings.Perm shown
  findings_inOrder : outcome.findings.Pairwise Finding.InOrder
  /-- One diagnostic for each input left out and each detector, one for each pair that failed, and
  one for each hit of a pair that succeeded which starts past the end of its file. -/
  diagnostics : ∃ inputs failures fallbacks,
    List.Forall₂ (fun p => Diagnostic.Records p.2 p.1.path .inputError)
      (b.rejected ×ˢ registry.enabled config) inputs ∧
    List.Forall₂ (fun p => Diagnostic.Records p.detector p.file.path p.kind)
      (failedPairs clock config registry b) failures ∧
    List.Forall₂ (fun s => Diagnostic.Records s.detector (s.target b).path .positionFallback)
      ((sightings clock config registry b).filter (Sighting.overshoots b)) fallbacks ∧
    outcome.diagnostics.Perm (inputs ++ (failures ++ fallbacks))
  failure_kinds : ∀ p ∈ failedPairs clock config registry b,
    p.kind = .structuralError ∨ p.kind = .detectorFailure ∨ p.kind = .timeout

/-! ## The account of one pair -/

theorem findingOf_shows (config : Config) (b : Batch) (s : Sighting) :
    Finding.Shows b s (findingOf config b s) where
  detector := rfl
  severity := rfl
  path := Detector.positionOf_path _ _
  offset := rfl
  length := rfl
  message := rfl

/-- Of the hits of a detector on a file, those past the end of their files are recorded. -/
theorem fallbacks_record (b : Batch) (d : Detector) (f : SourceFile) (hits : List Hit) :
    List.Forall₂ (fun s => Diagnostic.Records s.detector (s.target b).path .positionFallback)
      ((hits.map fun hit => (⟨d, f, hit⟩ : Sighting)).filter (Sighting.overshoots b))
      (hits.filterMap (d.fallback? b f)) := by
  induction hits with
  | nil => exact .nil
  | cons hit rest ih =>
    rw [List.map_cons, List.filter_cons, List.filterMap_cons, Detector.fallback?_eq]
    by_cases hover : (⟨d, f, hit⟩ : Sighting).overshoots b = true
    · rw [if_pos hover, if_pos hover]
      exact .cons ⟨rfl, rfl, rfl⟩ ih
    · rw [if_neg hover, if_neg hover]
      exact ih

/-- The diagnostics of a pair are that of its failure and those of its hits past the end of their
files; a pair has no more than one of the two sorts. -/
theorem diagnostics_contributionOf (clock : Clock) (config : Config) (b : Batch) (d : Detector)
    (f : SourceFile) :
    ∃ failures fallbacks,
      List.Forall₂ (fun p => Diagnostic.Records p.detector p.file.path p.kind)
        (failureOf clock config d f) failures ∧
      List.Forall₂ (fun s => Diagnostic.Records s.detector (s.target b).path .positionFallback)
        ((sightingsOf clock config d f).filter (Sighting.overshoots b)) fallbacks ∧
      (contributionOf clock config b d f).diagnostics = failures ++ fallbacks := by
  unfold failureOf sightingsOf
  cases h : verdict clock config d f with
  | error kind =>
    obtain ⟨detail, heq⟩ := contribution_of_error b h
    rw [heq]
    exact ⟨[_], [], .cons ⟨rfl, rfl, rfl⟩ .nil, .nil, rfl⟩
  | ok hits =>
    rw [contribution_of_ok b h]
    exact ⟨[], _, .nil, fallbacks_record b d f hits, rfl⟩

/-! ## The account of all pairs -/

/-- To go through all pairs is to go through the detectors, and for each through the files. -/
theorem flatMap_pairs {α : Type} (config : Config) (registry : Registry) (b : Batch)
    (g : Detector → SourceFile → List α) :
    ((pairs config registry b).flatMap fun p => g p.1 p.2) =
      (registry.enabled config).flatMap fun d => b.files.flatMap (g d) := by
  show (List.flatMap _ _).flatMap _ = _
  rw [List.flatMap_assoc]
  simp only [List.flatMap_map]

theorem gatheredFindings_eq (clock : Clock) (config : Config) (registry : Registry) (b : Batch) :
    gatheredFindings clock config b (registry.enabled config) =
      (sightings clock config registry b).map (findingOf config b) := by
  unfold gatheredFindings
  rw [sightings, List.map_flatMap]
  simp only [← findings_contributionOf]
  rw [flatMap_pairs config registry b fun d f => (contributionOf clock config b d f).findings]

theorem gatheredDiagnostics_eq (clock : Clock) (config : Config) (registry : Registry)
    (b : Batch) :
    gatheredDiagnostics clock config b (registry.enabled config) =
      rejections (registry.enabled config) b ++ (pairs config registry b).flatMap fun p =>
        (contributionOf clock config b p.1 p.2).diagnostics := by
  unfold gatheredDiagnostics
  rw [flatMap_pairs config registry b fun d f => (contributionOf clock config b d f).diagnostics]

/-- The accounts of the pairs add up. -/
theorem diagnostics_pairs (clock : Clock) (config : Config) (b : Batch)
    (ps : List (Detector × SourceFile)) :
    ∃ failures fallbacks,
      List.Forall₂ (fun p => Diagnostic.Records p.detector p.file.path p.kind)
        (ps.flatMap fun p => failureOf clock config p.1 p.2) failures ∧
      List.Forall₂ (fun s => Diagnostic.Records s.detector (s.target b).path .positionFallback)
        ((ps.flatMap fun p => sightingsOf clock config p.1 p.2).filter (Sighting.overshoots b))
        fallbacks ∧
      (ps.flatMap fun p => (contributionOf clock config b p.1 p.2).diagnostics).Perm
        (failures ++ fallbacks) := by
  induction ps with
  | nil => exact ⟨[], [], .nil, .nil, .refl _⟩
  | cons p rest ih =>
    obtain ⟨failures, fallbacks, hfailures, hfallbacks, hperm⟩ := ih
    obtain ⟨failures', fallbacks', hfailures', hfallbacks', heq⟩ :=
      diagnostics_contributionOf clock config b p.1 p.2
    refine ⟨failures' ++ failures, fallbacks' ++ fallbacks, ?_, ?_, ?_⟩
    · rw [List.flatMap_cons]
      exact List.rel_append hfailures' hfailures
    · rw [List.flatMap_cons, List.filter_append]
      exact List.rel_append hfallbacks' hfallbacks
    · rw [List.flatMap_cons, heq]
      -- the pairs mix failures and fallbacks, and the account wants the failures first
      have hswap : ((failures' ++ fallbacks') ++ (failures ++ fallbacks)).Perm
          ((failures' ++ failures) ++ (fallbacks' ++ fallbacks)) := by
        rw [List.append_assoc, List.append_assoc]
        refine List.Perm.append_left failures' ?_
        rw [← List.append_assoc, ← List.append_assoc]
        exact List.perm_append_comm.append_right fallbacks
      exact (hperm.append_left _).trans hswap

/-- An input that was left out is recorded once for each detector. -/
theorem rejections_record (b : Batch) (detectors : List Detector) :
    List.Forall₂ (fun p => Diagnostic.Records p.2 p.1.path .inputError)
      (b.rejected ×ˢ detectors) (rejections detectors b) := by
  have heq : rejections detectors b =
      (b.rejected ×ˢ detectors).map fun p => .ofError p.2.id p.1.path p.1.error := by
    show _ = (List.flatMap _ _).map _
    rw [List.map_flatMap]
    simp only [List.map_map]
    rfl
  rw [heq, List.forall₂_map_right_iff, List.forall₂_same]
  intro p _
  obtain ⟨fault, herror⟩ := p.1.isInput
  rw [herror]
  exact ⟨rfl, rfl, rfl⟩

/-- **A scan accounts for everything**, whatever the detectors do and however long they take. -/
theorem run_accounted (clock : Clock) (config : Config) (registry : Registry) (b : Batch) :
    Accounted clock config registry b (run clock config registry b) where
  findings := by
    refine ⟨(sightings clock config registry b).map (findingOf config b), ?_, ?_⟩
    · rw [List.forall₂_map_right_iff, List.forall₂_same]
      exact fun s _ => findingOf_shows config b s
    · rw [run_eq_sorted, ← gatheredFindings_eq]
      exact Finding.sort_perm _
  findings_inOrder := by
    rw [run_eq_sorted]
    exact Finding.pairwise_inOrder_sort _
  diagnostics := by
    obtain ⟨failures, fallbacks, hfailures, hfallbacks, hperm⟩ :=
      diagnostics_pairs clock config b (pairs config registry b)
    refine ⟨rejections (registry.enabled config) b, failures, fallbacks,
      rejections_record b _, hfailures, hfallbacks, ?_⟩
    rw [run_eq_sorted, gatheredDiagnostics_eq]
    exact (Diagnostic.sort_perm _).trans (hperm.append_left _)
  failure_kinds := by
    intro p hp
    obtain ⟨⟨d, f⟩, -, hp⟩ := List.mem_flatMap.1 hp
    unfold failureOf at hp
    cases h : verdict clock config d f with
    | ok hits =>
      rw [h] at hp
      cases hp
    | error kind =>
      rw [h] at hp
      rw [List.mem_singleton.1 hp]
      exact kind_of_verdict_error h

/-- A detector that breaks down on every file. -/
def brittleDetector : Detector where
  id := "brittle"
  title := "Breaks down"
  description := "Never gets to the end of a file."
  severity := .high
  matcher := .structural fun _ => .panicked none

/-- A detector that reports a place past the end of every file. -/
def overshootingDetector : Detector where
  id := "overshooting"
  title := "Overshoots"
  description := "Reports what is not there."
  severity := .low
  matcher := .structural fun f => .hits [{ range := f.range (f.size + 1) 1 }]

/-- A file with a tree of one node. -/
def rootedFile : SourceFile where
  path := "a.sol"
  text := "x"
  tree := .present (.leaf "SourceUnit" {})

/-- A batch of one file with a tree and one input that is not a text. -/
def mixedBatch : Batch :=
  .after [.file rootedFile, .bytes "b.sol" [255] none]

/-- The registry of the two detectors. -/
def mixedRegistry : Registry where
  detectors := [brittleDetector, overshootingDetector]
  ascending := by decide

theorem run_accounted_mixed :
    mixedBatch.files.map (·.path) = ["a.sol"] ∧ mixedBatch.rejected.map (·.path) = ["b.sol"] ∧
      (sightings (fun _ _ => 0) {} mixedRegistry mixedBatch).map (·.hit.range.offset) = [2] ∧
      (failedPairs (fun _ _ => 0) {} mixedRegistry mixedBatch).map (·.kind) =
        [.detectorFailure] ∧
      Accounted (fun _ _ => 0) {} mixedRegistry mixedBatch
        (run (fun _ _ => 0) {} mixedRegistry mixedBatch) :=
  ⟨by decide +kernel, by decide +kernel, by decide +kernel, by decide +kernel,
    run_accounted _ _ _ mixedBatch⟩

end Engine

end SolidityScan
