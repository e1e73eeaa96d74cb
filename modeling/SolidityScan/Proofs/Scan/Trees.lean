/-
# Trees and textual detectors

A detector that scans texts never looks at a tree, and what is reported of its matches is found in
texts, paths and numbers alone.  So two batches that differ in their trees only, whether these are
missing, faulty or present, give reports with the same lines of textual detectors.  A detector for
trees, in turn, has nothing to look at in a file without one, and does not even start.

* `Batch.SameTexts` : two batches differ in their trees only;
* `contributionOf_of_sameText` : a textual detector contributes the same to both;
* `contributionOf_idle` : what a detector for trees contributes on a file without one.
-/
import Mathlib.Data.List.Forall2
import SolidityScan.Proofs.Scan.Accounting
import SolidityScan.Proofs.Scan.Attribution
import SolidityScan.Proofs.Scan.Independence

namespace SolidityScan

/-! ## Files and batches that differ in their trees -/

/-- The files agree in path, text and number, and may differ in their trees. -/
structure SourceFile.SameText (f g : SourceFile) : Prop where
  path : f.path = g.path
  text : f.text = g.text
  sourceId : f.sourceId = g.sourceId

/-- The batches have the same files in the same order, up to their trees, and left out the same
inputs. -/
structure Batch.SameTexts (b b' : Batch) : Prop where
  files : List.Forall₂ SourceFile.SameText b.files b'.files
  rejected : b.rejected = b'.rejected

namespace SourceFile.SameText

variable {f g : SourceFile}

/-- One file is the other with another tree. -/
theorem exists_tree (h : f.SameText g) : ∃ tree, g = { f with tree } := by
  obtain ⟨path, text, tree, sourceId⟩ := f
  obtain ⟨path', text', tree', sourceId'⟩ := g
  obtain ⟨rfl, rfl, rfl⟩ := h
  exact ⟨tree', rfl⟩

theorem ofScan_eq (h : f.SameText g) (p : Pattern) : Ending.ofScan p f = Ending.ofScan p g := by
  obtain ⟨tree, rfl⟩ := h.exists_tree
  rfl

theorem resolve_eq (h : f.SameText g) (offset : Nat) : f.resolve offset = g.resolve offset := by
  obtain ⟨tree, rfl⟩ := h.exists_tree
  rfl

theorem positionOf_eq (h : f.SameText g) (offset : Nat) :
    Detector.positionOf f offset = Detector.positionOf g offset := by
  obtain ⟨tree, rfl⟩ := h.exists_tree
  rfl

theorem snippet?_eq (h : f.SameText g) (offset : Nat) :
    f.snippet? (min offset f.size) = g.snippet? (min offset g.size) := by
  obtain ⟨tree, rfl⟩ := h.exists_tree
  rfl

end SourceFile.SameText

namespace Batch.SameTexts

variable {b b' : Batch}

/-- A number leads to the same file in both batches. -/
theorem bySourceId?_rel (h : b.SameTexts b') (id : Nat) :
    Option.Rel SourceFile.SameText (b.bySourceId? id) (b'.bySourceId? id) := by
  have hfiles := h.files
  unfold bySourceId?
  generalize b.files = files at hfiles ⊢
  generalize b'.files = files' at hfiles ⊢
  induction hfiles with
  | nil => exact .none
  | cons hfg _ ih =>
    rw [List.find?_cons, List.find?_cons, hfg.sourceId]
    split
    · exact .some hfg
    · exact ih

/-- A range is in the same file of both batches. -/
theorem fileFor (h : b.SameTexts b') {f g : SourceFile} (hfg : f.SameText g)
    (range : SourceRange) : (b.fileFor range f).SameText (b'.fileFor range g) := by
  unfold Batch.fileFor
  cases range.file with
  | none => exact hfg
  | some id =>
    have hfound := h.bySourceId?_rel id
    rw [Option.bind_some, Option.bind_some]
    generalize b.bySourceId? id = found at hfound ⊢
    generalize b'.bySourceId? id = found' at hfound ⊢
    cases hfound with
    | none => exact hfg
    | some hfg' => exact hfg'

end Batch.SameTexts

namespace Detector

variable {b b' : Batch} {f g : SourceFile}

theorem detect_of_sameText {d : Detector} (hd : d.isTextual = true) (hfg : f.SameText g) :
    d.detect f = d.detect g := by
  unfold isTextual at hd
  unfold detect
  split at hd
  · next p hp => exact hfg.ofScan_eq p
  · cases hd

/-- What is shown of a hit does not depend on trees. -/
theorem finding_of_sameText (d : Detector) (hb : b.SameTexts b') (hfg : f.SameText g)
    (snippets : Bool) (h : Hit) : d.finding b f snippets h = d.finding b' g snippets h := by
  have htarget := hb.fileFor hfg h.range
  unfold finding
  dsimp only
  rw [htarget.positionOf_eq, htarget.snippet?_eq]

theorem fallback?_of_sameText (d : Detector) (hb : b.SameTexts b') (hfg : f.SameText g)
    (h : Hit) : d.fallback? b f h = d.fallback? b' g h := by
  have htarget := hb.fileFor hfg h.range
  unfold fallback?
  dsimp only
  rw [htarget.resolve_eq, htarget.path]

end Detector

namespace Engine

variable {clock clock' : Clock} {config : Config} {b b' : Batch}

/-! ## One pair -/

/-- A textual detector contributes the same on files that differ in their trees, if it takes too
long on both or on neither. -/
theorem contributionOf_of_sameText {d : Detector} (hd : d.isTextual = true) (hb : b.SameTexts b')
    {f g : SourceFile} (hfg : f.SameText g)
    (htime : exceeded? config (clock d f) = exceeded? config (clock' d g)) :
    contributionOf clock config b d f = contributionOf clock' config b' d g := by
  unfold contributionOf contribution
  rw [d.detect_of_sameText hd hfg, htime]
  cases d.detect g with
  | failed failure => simp only [Contribution.failed, hfg.path]
  | panicked message => simp only [Contribution.failed, hfg.path]
  | hits hits =>
    dsimp only
    cases exceeded? config (clock' d g) with
    | some limit => simp only [Contribution.failed, hfg.path]
    | none =>
      have hfindings : hits.map (d.finding b f config.snippets) =
          hits.map (d.finding b' g config.snippets) :=
        List.map_congr_left fun h _ => d.finding_of_sameText hb hfg config.snippets h
      have hfallbacks : hits.filterMap (d.fallback? b f) = hits.filterMap (d.fallback? b' g) :=
        List.filterMap_congr fun h _ => d.fallback?_of_sameText hb hfg h
      dsimp only [Detector.locate]
      rw [hfindings, hfallbacks]

/-- A detector for trees contributes nothing on a file without one, whatever it would do on a tree,
unless even that takes too long. -/
theorem contributionOf_idle {d : Detector} (hd : d.isTextual = false) {f : SourceFile}
    (hf : f.tree? = none) :
    contributionOf clock config b d f =
      (exceeded? config (clock d f)).elim {} fun limit => .failed d f (.timeout d.id limit) := by
  have hdetect : d.detect f = .hits [] := by
    unfold Detector.isTextual at hd
    unfold Detector.detect
    split at hd
    · cases hd
    · next run hrun => simp [hf]
  unfold contributionOf contribution
  rw [hdetect]
  cases exceeded? config (clock d f) with
  | none => rfl
  | some limit => rfl

/-! ## Two scans -/

/-- In two scans, each textual detector takes too long on the same files. -/
def SameOverruns (clock clock' : Clock) (config : Config) (detectors : List Detector)
    (b b' : Batch) : Prop :=
  ∀ d ∈ detectors, d.isTextual = true →
    List.Forall₂ (fun f g => exceeded? config (clock d f) = exceeded? config (clock' d g))
      b.files b'.files

/-- The identifiers of the textual detectors. -/
def textualIds (detectors : List Detector) : List String :=
  (detectors.filter (·.isTextual)).map (·.id)

/-- What a textual detector gathers on the files of a batch does not depend on their trees. -/
theorem flatMap_contributionOf {α : Type} {d : Detector} (hd : d.isTextual = true)
    (hb : b.SameTexts b')
    (htime : List.Forall₂
      (fun f g => exceeded? config (clock d f) = exceeded? config (clock' d g)) b.files b'.files)
    (part : Contribution → List α) :
    (b.files.flatMap fun f => part (contributionOf clock config b d f)) =
      b'.files.flatMap fun g => part (contributionOf clock' config b' d g) := by
  obtain ⟨hlength, hfiles⟩ := List.forall₂_iff_zip.1 hb.files
  obtain ⟨-, htime⟩ := List.forall₂_iff_zip.1 htime
  have hparts : (b.files.map fun f => part (contributionOf clock config b d f)) =
      b'.files.map fun g => part (contributionOf clock' config b' d g) := by
    rw [← List.forall₂_eq_eq_eq, List.forall₂_map_left_iff, List.forall₂_map_right_iff]
    refine List.forall₂_iff_zip.2 ⟨hlength, fun {f g} hfg => ?_⟩
    rw [contributionOf_of_sameText hd hb (hfiles hfg) (htime hfg)]
  rw [List.flatMap_def, List.flatMap_def, hparts]

/-- What textual detectors gather does not depend on trees. -/
theorem gathered_of_sameTexts {detectors : List Detector}
    (hd : ∀ d ∈ detectors, d.isTextual = true) (hb : b.SameTexts b')
    (htime : SameOverruns clock clock' config detectors b b') :
    gatheredFindings clock config b detectors = gatheredFindings clock' config b' detectors ∧
      gatheredDiagnostics clock config b detectors =
        gatheredDiagnostics clock' config b' detectors := by
  have hflat : ∀ {α : Type} (part : Contribution → List α),
      (detectors.flatMap fun d =>
          b.files.flatMap fun f => part (contributionOf clock config b d f)) =
        detectors.flatMap fun d =>
          b'.files.flatMap fun g => part (contributionOf clock' config b' d g) := by
    intro α part
    refine List.flatMap_congr fun d hmem => ?_
    exact flatMap_contributionOf (hd d hmem) hb (htime d hmem (hd d hmem)) part
  constructor
  · exact hflat (·.findings)
  · unfold gatheredDiagnostics rejections
    rw [hb.rejected, hflat (·.diagnostics)]

/-- The enabled detectors with the identifiers of textual ones are the textual ones. -/
theorem filter_textualIds {detectors : List Detector} (h : Registry.Ascending detectors) :
    (detectors.filter fun d => decide (d.id ∈ textualIds detectors)) =
      detectors.filter (·.isTextual) := by
  refine List.filter_congr fun d hd => ?_
  rw [Bool.eq_iff_iff, decide_eq_true_eq, textualIds, List.mem_map]
  constructor
  · rintro ⟨e, he, hid⟩
    obtain ⟨he, htextual⟩ := List.mem_filter.1 he
    rwa [h.eq_of_id_eq hd he hid.symm]
  · intro htextual
    exact ⟨d, List.mem_filter.2 ⟨hd, htextual⟩, rfl⟩

/-- The lines of the textual detectors are what these gather, put in order. -/
theorem restrict_textualIds (r : Registry) (clock : Clock) (config : Config) (b : Batch) :
    (run clock config r b).restrict (textualIds (r.enabled config)) =
      .sorted (gatheredFindings clock config b ((r.enabled config).filter (·.isTextual)))
        (gatheredDiagnostics clock config b ((r.enabled config).filter (·.isTextual))) := by
  rw [run_eq_sorted, ScanOutcome.restrict_sorted,
    filter_gatheredFindings b fun id => decide (id ∈ textualIds (r.enabled config)),
    filter_gatheredDiagnostics b fun id => decide (id ∈ textualIds (r.enabled config)),
    filter_textualIds (r.enabled_ascending config)]

/-- **Trees do not influence the lines of textual detectors.**  Two scans of batches that differ in
their trees only have the same findings and the same diagnostics of textual detectors, in the same
order, as long as these take too long on the same files.  Each scan has its own clock, since the
time of a pair may depend on the tree.  A detector for trees contributes nothing on a file without
one, unless it takes too long on it, which is then all that is recorded. -/
theorem run_textual_eq {r : Registry} (hb : b.SameTexts b')
    (htime : SameOverruns clock clock' config (r.enabled config) b b') :
    (run clock config r b).restrict (textualIds (r.enabled config)) =
        (run clock' config r b').restrict (textualIds (r.enabled config)) ∧
      ∀ d ∈ r.enabled config, d.isTextual = false → ∀ f ∈ b.files, f.tree? = none →
        contributionOf clock config b d f =
          (exceeded? config (clock d f)).elim {}
            fun limit => .failed d f (.timeout d.id limit) := by
  refine ⟨?_, fun d _ hd f _ hf => contributionOf_idle hd hf⟩
  have htextual : ∀ d ∈ (r.enabled config).filter (·.isTextual), d.isTextual = true :=
    fun d hd => (List.mem_filter.1 hd).2
  have htime' : SameOverruns clock clock' config ((r.enabled config).filter (·.isTextual)) b b' :=
    fun d hd => htime d (List.mem_filter.1 hd).1
  obtain ⟨hfindings, hdiagnostics⟩ := gathered_of_sameTexts htextual hb htime'
  rw [restrict_textualIds, restrict_textualIds, hfindings, hdiagnostics]

/-! ## A file with and without its tree -/

/-- A batch of one file, with the letter `x` for its text and the given tree. -/
def letterBatch (tree : TreeStatus) : Batch where
  files := [{ path := "a.sol", text := "x", tree, sourceId := some 0 }]

/-- The registry of a textual detector and one that breaks down on every tree. -/
def brittleRegistry : Registry where
  detectors := [brittleDetector, letterDetector]
  ascending := by decide

theorem run_textual_eq_faulty :
    ((letterBatch (.present default)).SameTexts (letterBatch (.faulty .invalidJson)) ∧
        SameOverruns (fun _ _ => 0) (fun _ _ => 1) {} (brittleRegistry.enabled {})
          (letterBatch (.present default)) (letterBatch (.faulty .invalidJson))) ∧
      (run (fun _ _ => 0) {} brittleRegistry (letterBatch (.present default))).restrict
          ["letter-x"] =
        (run (fun _ _ => 1) {} brittleRegistry (letterBatch (.faulty .invalidJson))).restrict
          ["letter-x"] := by
  have hb : (letterBatch (.present default)).SameTexts (letterBatch (.faulty .invalidJson)) :=
    ⟨.cons ⟨rfl, rfl, rfl⟩ .nil, rfl⟩
  have hquick : exceeded? {} 0 = exceeded? {} 1 := by decide +kernel
  have htime : SameOverruns (fun _ _ => 0) (fun _ _ => 1) {} (brittleRegistry.enabled {})
      (letterBatch (.present default)) (letterBatch (.faulty .invalidJson)) :=
    fun _ _ _ => .cons hquick .nil
  exact ⟨⟨hb, htime⟩, (run_textual_eq hb htime).1⟩

/-- With no time to spare, a detector for trees takes too long even on a file that has none. -/
theorem idle_pair_overruns :
    brittleDetector.isTextual = false ∧
      (letterBatch .missing).files.map (·.tree?.isSome) = [false] ∧
      (run (fun _ _ => 1) { timeout := some 0 } (.single brittleDetector)
          (letterBatch .missing)).diagnostics.map (fun x => (x.detector, x.path, x.kind)) =
        [("brittle", some "a.sol", .timeout)] ∧
      ¬ ∀ f ∈ (letterBatch .missing).files, f.tree? = none →
        contributionOf (fun _ _ => 1) { timeout := some 0 } (letterBatch .missing)
          brittleDetector f = {} := by
  refine ⟨rfl, rfl, by decide +kernel, fun h => ?_⟩
  have hnone := h _ List.mem_cons_self rfl
  revert hnone
  decide +kernel

end Engine

end SolidityScan
