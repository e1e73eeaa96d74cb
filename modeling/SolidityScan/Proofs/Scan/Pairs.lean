/-
# The pairs of a scan

A scan is the work of its pairs of a detector and a file.  A pair succeeds with the hits that the
detector returns, or fails with one kind of fault: the detector reports a fault of the tree, it
fails or breaks down in any other way, or it takes too long.  This module says once what a pair
contributes in either case, and reads off what a whole scan is made of.

* `contribution_of_ok`, `contribution_of_error` : what one pair contributes;
* `run_eq_sorted` : a scan puts in order what the detectors gather on the files;
* `exists_of_mem_run` : every finding of a scan is that of a hit of an enabled detector;
* `filter_gatheredFindings`, `filter_gatheredDiagnostics` : what has certain identifiers is gathered
  by the detectors with these identifiers.
-/
import Mathlib.Data.List.Basic
import SolidityScan.Proofs.Scan.Order
import SolidityScan.Proofs.Scan.Positions
import SolidityScan.Scan.Engine

namespace SolidityScan

/-- A hit with the detector that returned it and the file on which it did. -/
structure Sighting where
  detector : Detector
  file : SourceFile
  hit : Hit

namespace Sighting

/-- The file that the hit is in, which need not be the one on which it was found. -/
def target (s : Sighting) (b : Batch) : SourceFile :=
  b.fileFor s.hit.range s.file

/-- The hit starts past the end of the file that it is in. -/
def overshoots (b : Batch) (s : Sighting) : Bool :=
  decide ((s.target b).size < s.hit.range.offset)

end Sighting

namespace Detector

/-- A detector that reports the same hits in every file with a tree. -/
def reporting (id : String) (severity : Severity) (hits : List Hit) : Detector where
  id := id
  title := id
  description := "Reports the same in every file."
  severity := severity
  matcher := .structural fun _ => .hits hits

/-! ## Findings of hits -/

/-- A hit leaves a diagnostic exactly if it starts past the end of its file. -/
theorem fallback?_eq (d : Detector) (b : Batch) (f : SourceFile) (h : Hit) :
    d.fallback? b f h =
      if (⟨d, f, h⟩ : Sighting).overshoots b then
        some (.ofError d.id (b.fileFor h.range f).path
          (.positionResolution (b.fileFor h.range f).path h.range.offset
            (b.fileFor h.range f).size))
      else none := by
  unfold fallback? Sighting.overshoots Sighting.target
  cases hr : (b.fileFor h.range f).resolve h.range.offset with
  | ok position =>
    have hle : ¬ (b.fileFor h.range f).size < h.range.offset := by
      intro hlt
      rw [((b.fileFor h.range f).resolve_eq_error_iff h.range.offset _).2 ⟨hlt, rfl⟩] at hr
      cases hr
    simp [hr, hle]
  | error e =>
    obtain ⟨hlt, rfl⟩ := ((b.fileFor h.range f).resolve_eq_error_iff h.range.offset e).1 hr
    simp [hr, hlt]

end Detector

namespace Engine

/-! ## One pair -/

/-- How a pair of a detector and a file ends: with the hits that count, or with the kind of fault
that is recorded in their place. -/
def verdict (clock : Clock) (config : Config) (d : Detector) (f : SourceFile) :
    Except DiagnosticKind (List Hit) :=
  match d.detect f with
  | .failed (.engine (.structural _)) => .error .structuralError
  | .failed _ => .error .detectorFailure
  | .panicked _ => .error .detectorFailure
  | .hits hits => if (exceeded? config (clock d f)).isSome then .error .timeout else .ok hits

/-- The contribution of a pair in a scan. -/
def contributionOf (clock : Clock) (config : Config) (b : Batch) (d : Detector) (f : SourceFile) :
    Contribution :=
  contribution config b d f (d.detect f) (clock d f)

variable {clock : Clock} {config : Config} {d : Detector} {f : SourceFile}

/-- A failure of a detector is recorded under one of two kinds, whatever error it returns. -/
theorem ofError_classify (d : Detector) (failure : Failure) :
    DiagnosticKind.ofError (d.classify failure) =
      match failure with
      | .engine (.structural _) => .structuralError
      | _ => .detectorFailure := by
  cases failure with
  | engine e => cases e <;> rfl
  | foreign text => rfl

/-- A pair that succeeds contributes a finding for each hit, and a diagnostic for each that starts
past the end of its file. -/
theorem contribution_of_ok {hits : List Hit} (b : Batch)
    (h : verdict clock config d f = .ok hits) :
    contributionOf clock config b d f =
      { findings := hits.map (d.finding b f config.snippets)
        diagnostics := hits.filterMap (d.fallback? b f) } := by
  unfold verdict at h
  unfold contributionOf contribution
  split at h
  · cases h
  · cases h
  · cases h
  · next found hd =>
    split_ifs at h with hlimit
    cases h
    rw [hd]
    have hnone : exceeded? config (clock d f) = none := by simpa using hlimit
    simp only [hnone, Detector.locate]

/-- A pair only succeeds with what the detector returned. -/
theorem detect_of_verdict {hits : List Hit} (h : verdict clock config d f = .ok hits) :
    d.detect f = .hits hits := by
  unfold verdict at h
  split at h
  · cases h
  · cases h
  · cases h
  · next found hd =>
    split_ifs at h
    cases h
    exact hd

/-- A pair that fails contributes no finding and one diagnostic, of the kind of its fault. -/
theorem contribution_of_error {kind : DiagnosticKind} (b : Batch)
    (h : verdict clock config d f = .error kind) :
    ∃ detail, contributionOf clock config b d f =
      { diagnostics := [{ detector := d.id, path := some f.path, kind, detail }] } := by
  unfold verdict at h
  unfold contributionOf contribution
  split at h
  · next fault hd =>
    cases h
    rw [hd]
    exact ⟨_, rfl⟩
  · next failure hstructural hd =>
    cases h
    rw [hd]
    -- whatever else the detector returns is turned into a failure of the detector
    have hkind : DiagnosticKind.ofError (d.classify failure) = .detectorFailure := by
      rw [ofError_classify]
      split
      · next fault => exact absurd rfl (hstructural fault)
      · rfl
    refine ⟨(d.classify failure).message, ?_⟩
    simp only [Contribution.failed, Diagnostic.ofError, hkind]
  · next message hd =>
    cases h
    rw [hd]
    exact ⟨_, rfl⟩
  · next found hd =>
    -- the hits are lost if they come too late
    split_ifs at h with hlimit
    cases h
    rw [hd]
    obtain ⟨limit, hsome⟩ := Option.isSome_iff_exists.1 hlimit
    refine ⟨(EngineError.timeout d.id limit).message, ?_⟩
    simp only [hsome]
    rfl

/-- The fault of a pair is of one of three kinds. -/
theorem kind_of_verdict_error {kind : DiagnosticKind}
    (h : verdict clock config d f = .error kind) :
    kind = .structuralError ∨ kind = .detectorFailure ∨ kind = .timeout := by
  unfold verdict at h
  split at h
  · cases h
    exact Or.inl rfl
  · cases h
    exact Or.inr (Or.inl rfl)
  · cases h
    exact Or.inr (Or.inl rfl)
  · split_ifs at h
    cases h
    exact Or.inr (Or.inr rfl)

/-- All that a pair contributes carries the identifier of its detector. -/
theorem detector_of_mem_contribution (b : Batch) :
    (∀ x ∈ (contributionOf clock config b d f).findings, x.detector = d.id) ∧
      ∀ x ∈ (contributionOf clock config b d f).diagnostics, x.detector = d.id := by
  cases h : verdict clock config d f with
  | ok hits =>
    rw [contribution_of_ok b h]
    constructor
    · intro x hx
      obtain ⟨hit, -, rfl⟩ := List.mem_map.1 hx
      rfl
    · intro x hx
      obtain ⟨hit, -, hfallback⟩ := List.mem_filterMap.1 hx
      rw [Detector.fallback?_eq] at hfallback
      split_ifs at hfallback
      cases hfallback
      rfl
  | error kind =>
    obtain ⟨detail, heq⟩ := contribution_of_error b h
    rw [heq]
    simp

/-- Of the settings, a pair only depends on the time it may take and on whether snippets are
wanted. -/
theorem contributionOf_congr {config' : Config} (htimeout : config.timeout = config'.timeout)
    (hsnippets : config.snippets = config'.snippets) (b : Batch) (d : Detector)
    (f : SourceFile) :
    contributionOf clock config b d f = contributionOf clock config' b d f := by
  unfold contributionOf contribution exceeded?
  rw [htimeout, hsnippets]

/-- The hits of a pair that count, with the pair. -/
def sightingsOf (clock : Clock) (config : Config) (d : Detector) (f : SourceFile) :
    List Sighting :=
  match verdict clock config d f with
  | .ok hits => hits.map fun hit => ⟨d, f, hit⟩
  | .error _ => []

/-- The finding for a hit that counts. -/
def findingOf (config : Config) (b : Batch) (s : Sighting) : Finding :=
  s.detector.finding b s.file config.snippets s.hit

theorem findings_contributionOf (clock : Clock) (config : Config) (b : Batch) (d : Detector)
    (f : SourceFile) :
    (contributionOf clock config b d f).findings =
      (sightingsOf clock config d f).map (findingOf config b) := by
  unfold sightingsOf
  cases h : verdict clock config d f with
  | ok hits =>
    rw [contribution_of_ok b h, List.map_map]
    rfl
  | error kind =>
    obtain ⟨detail, heq⟩ := contribution_of_error b h
    rw [heq]
    rfl

/-! ## All pairs -/

/-- The findings that detectors gather on the files of a batch, before they are put in order. -/
def gatheredFindings (clock : Clock) (config : Config) (b : Batch) (detectors : List Detector) :
    List Finding :=
  detectors.flatMap fun d =>
    b.files.flatMap fun f => (contributionOf clock config b d f).findings

/-- The diagnostics that detectors gather on a batch, before they are put in order. -/
def gatheredDiagnostics (clock : Clock) (config : Config) (b : Batch)
    (detectors : List Detector) : List Diagnostic :=
  rejections detectors b ++ detectors.flatMap fun d =>
    b.files.flatMap fun f => (contributionOf clock config b d f).diagnostics

/-- A scan puts in order what the enabled detectors gather. -/
theorem run_eq_sorted (clock : Clock) (config : Config) (registry : Registry) (b : Batch) :
    run clock config registry b =
      .sorted (gatheredFindings clock config b (registry.enabled config))
        (gatheredDiagnostics clock config b (registry.enabled config)) := by
  unfold run contributions gatheredFindings gatheredDiagnostics
  simp only [List.flatMap_assoc, List.flatMap_map]
  rfl

theorem run_inOrder (clock : Clock) (config : Config) (registry : Registry) (b : Batch) :
    (run clock config registry b).findings.Pairwise Finding.InOrder := by
  rw [run_eq_sorted]
  exact Finding.pairwise_inOrder_sort _

/-- What counts was returned by the detector on the file. -/
theorem of_mem_sightingsOf {s : Sighting} (h : s ∈ sightingsOf clock config d f) :
    s.detector = d ∧ s.file = f ∧ ∃ hits, d.detect f = .hits hits ∧ s.hit ∈ hits := by
  unfold sightingsOf at h
  split at h
  · next hits hverdict =>
    obtain ⟨hit, hhit, rfl⟩ := List.mem_map.1 h
    exact ⟨rfl, rfl, hits, detect_of_verdict hverdict, hhit⟩
  · cases h

/-- Every finding of a scan is that of a hit, which an enabled detector returned on a file of the
batch. -/
theorem exists_of_mem_run {registry : Registry} {b : Batch} {x : Finding}
    (hx : x ∈ (run clock config registry b).findings) :
    ∃ s : Sighting, s.detector ∈ registry.enabled config ∧ s.file ∈ b.files ∧
      x = findingOf config b s := by
  rw [run_eq_sorted] at hx
  obtain ⟨d, hd, hx⟩ := List.mem_flatMap.1 ((Finding.sort_perm _).mem_iff.1 hx)
  obtain ⟨f, hf, hx⟩ := List.mem_flatMap.1 hx
  rw [findings_contributionOf] at hx
  obtain ⟨s, hs, rfl⟩ := List.mem_map.1 hx
  obtain ⟨hdetector, hfile, -⟩ := of_mem_sightingsOf hs
  exact ⟨s, hdetector ▸ hd, hfile ▸ hf, rfl⟩

/-- If all that a detector adds carries its identifier, the lines with certain identifiers are those
that the detectors with these identifiers add. -/
theorem filter_flatMap_detectors {α : Type} {key : α → String} {g : Detector → List α}
    (hkey : ∀ d, ∀ x ∈ g d, key x = d.id) (p : String → Bool) (detectors : List Detector) :
    (detectors.flatMap g).filter (fun x => p (key x)) =
      (detectors.filter fun d => p d.id).flatMap g := by
  induction detectors with
  | nil => rfl
  | cons d rest ih =>
    rw [List.flatMap_cons, List.filter_append, ih, List.filter_cons]
    by_cases hp : p d.id = true
    · have hall : (g d).filter (fun x => p (key x)) = g d := by
        rw [List.filter_eq_self]
        intro x hx
        rw [hkey d x hx, hp]
      rw [if_pos hp, hall, List.flatMap_cons]
    · have hnone : (g d).filter (fun x => p (key x)) = [] := by
        rw [List.filter_eq_nil_iff]
        intro x hx
        rwa [hkey d x hx]
      rw [if_neg hp, hnone, List.nil_append]

/-- The findings with certain identifiers are those of the detectors with these identifiers. -/
theorem filter_gatheredFindings (b : Batch) (p : String → Bool) (detectors : List Detector) :
    (gatheredFindings clock config b detectors).filter (fun x => p x.detector) =
      gatheredFindings clock config b (detectors.filter fun d => p d.id) := by
  apply filter_flatMap_detectors
  intro d x hx
  obtain ⟨f, -, hx⟩ := List.mem_flatMap.1 hx
  exact (detector_of_mem_contribution b).1 x hx

/-- The lines on inputs that were left out are selected like all others. -/
theorem filter_rejections (b : Batch) (p : String → Bool) (detectors : List Detector) :
    (rejections detectors b).filter (fun x => p x.detector) =
      rejections (detectors.filter fun d => p d.id) b := by
  unfold rejections
  rw [List.filter_flatMap]
  simp only [List.filter_map]
  rfl

/-- The diagnostics with certain identifiers are those of the detectors with these identifiers. -/
theorem filter_gatheredDiagnostics (b : Batch) (p : String → Bool) (detectors : List Detector) :
    (gatheredDiagnostics clock config b detectors).filter (fun x => p x.detector) =
      gatheredDiagnostics clock config b (detectors.filter fun d => p d.id) := by
  unfold gatheredDiagnostics
  rw [List.filter_append, filter_rejections]
  congr 1
  apply filter_flatMap_detectors
  intro d x hx
  obtain ⟨f, -, hx⟩ := List.mem_flatMap.1 hx
  exact (detector_of_mem_contribution b).2 x hx

end Engine

end SolidityScan
