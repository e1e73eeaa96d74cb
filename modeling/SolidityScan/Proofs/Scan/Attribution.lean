/-
# Matches and the files they are found in

A match in the text of a file is passed on under the number of the file, and looked up in the batch
by that number again.  Numbers need not be unique, and a number leads to the first file that has it,
so the matches of the others are shown there.

The main statement says exactly when a report is right about the matches of a detector: if and only
if each file with matches is the first with its number.
-/
import Mathlib.Data.List.Forall2
import SolidityScan.Proofs.Regex.Places
import SolidityScan.Proofs.Registry
import SolidityScan.Proofs.Scan.Order
import SolidityScan.Proofs.Scan.Pairs
import SolidityScan.Proofs.Source.Lookup
import SolidityScan.Proofs.Source.Requests

namespace SolidityScan

/-! ## Matches and findings -/

/-- The finding shows the match in the file: it has the extent of the match, and its position is
that of the start of the match in the text. -/
structure Finding.Marks (f : SourceFile) (m : Match) (x : Finding) : Prop where
  offset : x.offset = m.start
  length : x.length = m.stop - m.start
  position : f.resolve m.start = .ok x.position

/-- The hit for a match in a file. -/
def Match.hitIn (m : Match) (f : SourceFile) : Hit :=
  { range := f.range m.start (m.stop - m.start) }

namespace Engine

/-- A detector with the given pattern goes through the text of the file in time, and these are the
matches. -/
structure Scans (clock : Clock) (config : Config) (d : Detector) (p : Pattern) (f : SourceFile)
    (ms : List Match) : Prop where
  scan : p.scan f.text = .ok ms
  inTime : exceeded? config (clock d f) = none

/-- The outcome shows the matches of a detector in the files they are in: for every file that is
gone through, the findings with its path are exactly its matches, in order; and there are no
others. -/
structure Attributes (clock : Clock) (config : Config) (b : Batch) (d : Detector) (p : Pattern)
    (outcome : ScanOutcome) : Prop where
  exact : ∀ f ∈ b.files, ∀ ms, Scans clock config d p f ms →
    List.Forall₂ (Finding.Marks f) ms
      (outcome.findings.filter fun x => decide (x.detector = d.id ∧ x.position.path = f.path))
  nothingElse : ∀ x ∈ outcome.findings, x.detector = d.id →
    ∃ f ∈ b.files, x.position.path = f.path ∧ ∃ ms, Scans clock config d p f ms

variable {clock : Clock} {config : Config} {b : Batch} {d : Detector} {p : Pattern}
  {f : SourceFile}

/-- A detector with a pattern succeeds on a file with the hits for the matches. -/
theorem verdict_of_scans (hp : d.matcher = .textual p) {ms : List Match}
    (h : Scans clock config d p f ms) :
    verdict clock config d f = .ok (ms.map (·.hitIn f)) := by
  have hdetect : d.detect f = .hits (ms.map (·.hitIn f)) := by
    unfold Detector.detect Ending.ofScan
    rw [hp]
    dsimp only
    rw [h.scan]
    rfl
  unfold verdict
  rw [hdetect]
  simp [h.inTime]

theorem scans_of_verdict (hp : d.matcher = .textual p) {hits : List Hit}
    (h : verdict clock config d f = .ok hits) : ∃ ms, Scans clock config d p f ms := by
  unfold verdict Detector.detect Ending.ofScan at h
  rw [hp] at h
  dsimp only at h
  cases hscan : p.scan f.text with
  | error e =>
    rw [hscan] at h
    cases h
  | ok ms =>
    rw [hscan] at h
    dsimp only at h
    split_ifs at h with hlimit
    exact ⟨ms, hscan, by simpa using hlimit⟩

/-- What the detector contributes on a file that it goes through. -/
theorem findings_of_scans (b : Batch) (hp : d.matcher = .textual p) {ms : List Match}
    (h : Scans clock config d p f ms) :
    (contributionOf clock config b d f).findings =
      ms.map fun m => d.finding b f config.snippets (m.hitIn f) := by
  rw [contribution_of_ok b (verdict_of_scans hp h), List.map_map]
  rfl

/-- Every finding of the detector is that of a match, in the file to which the number of the file
with the match leads. -/
theorem of_mem_findings (hp : d.matcher = .textual p) {x : Finding}
    (hx : x ∈ (contributionOf clock config b d f).findings) :
    x.position.path = (b.holder f).path ∧ ∃ ms, ms ≠ [] ∧ Scans clock config d p f ms := by
  cases hv : verdict clock config d f with
  | error kind =>
    obtain ⟨detail, heq⟩ := contribution_of_error b hv
    rw [heq] at hx
    cases hx
  | ok hits =>
    obtain ⟨ms, hms⟩ := scans_of_verdict hp hv
    rw [findings_of_scans b hp hms] at hx
    obtain ⟨m, hm, rfl⟩ := List.mem_map.1 hx
    exact ⟨Detector.positionOf_path _ _, ms, List.ne_nil_of_mem hm, hms⟩

/-- The matches in a file give findings in order. -/
theorem findings_inOrder (b : Batch) (hp : d.matcher = .textual p) {ms : List Match}
    (h : Scans clock config d p f ms) :
    (contributionOf clock config b d f).findings.Pairwise Finding.InOrder := by
  rw [findings_of_scans b hp h, List.pairwise_map]
  refine (Pattern.starts_pairwise_lt h.scan).imp ?_
  intro m n hlt
  refine Or.inr ⟨rfl, Or.inr ⟨rfl, Or.inr ⟨?_, Nat.le_of_lt hlt⟩⟩⟩
  exact (Detector.positionOf_path _ _).trans (Detector.positionOf_path _ _).symm

/-- If the number of a file leads back to it, its matches are shown in it. -/
theorem finding_marks (hholder : b.holder f = f) {ms : List Match}
    (h : Scans clock config d p f ms) {m : Match} (hm : m ∈ ms) :
    Finding.Marks f m (d.finding b f config.snippets (m.hitIn f)) where
  offset := rfl
  length := rfl
  position := by
    obtain ⟨position, hposition⟩ :=
      SourceFile.exists_resolve_eq_ok (Pattern.start_le_size h.scan hm)
    have hfile : b.fileFor (m.hitIn f).range f = f := (b.fileFor_range f _ _).trans hholder
    have hshown : (d.finding b f config.snippets (m.hitIn f)).position = position := by
      unfold Detector.finding
      dsimp only
      rw [hfile]
      exact Detector.positionOf_of_resolve hposition
    rw [hshown, hposition]

/-- The findings of a detector with a certain path come from the files whose numbers lead there. -/
theorem findings_at {r : Registry} (hd : d ∈ r.enabled config) (hp : d.matcher = .textual p)
    (clock : Clock) (b : Batch) (path : String) :
    (run clock config r b).findings.filter
        (fun x => decide (x.detector = d.id ∧ x.position.path = path)) =
      Finding.sort (b.files.flatMap fun g =>
        if (b.holder g).path = path then (contributionOf clock config b d g).findings else []) := by
  have hsplit : (fun x : Finding => decide (x.detector = d.id ∧ x.position.path = path)) =
      fun x => decide (x.position.path = path) && decide (x.detector = d.id) := by
    funext x
    rw [Bool.decide_and, Bool.and_comm]
  rw [run_eq_sorted]
  show (Finding.sort _).filter _ = _
  -- select before sorting, first by the detector and then by the path
  rw [Finding.filter_sort, hsplit, ← List.filter_filter,
    filter_gatheredFindings b fun id => decide (id = d.id),
    (r.enabled_ascending config).filter_id hd]
  unfold gatheredFindings
  rw [List.flatMap_singleton, List.filter_flatMap]
  congr 2
  funext g
  by_cases hpath : (b.holder g).path = path
  · rw [if_pos hpath, List.filter_eq_self]
    intro x hx
    rw [(of_mem_findings hp hx).1]
    exact decide_eq_true hpath
  · rw [if_neg hpath, List.filter_eq_nil_iff]
    intro x hx
    rw [(of_mem_findings hp hx).1]
    simpa using hpath

/-- If every file with matches is the first with its number, the findings with the path of a file
are those of its own matches. -/
theorem findings_at_eq {r : Registry} (hd : d ∈ r.enabled config) (hp : d.matcher = .textual p)
    (hfirst : ∀ f ∈ b.files, ∀ ms, Scans clock config d p f ms → ms ≠ [] → b.IsFirst f)
    (hf : f ∈ b.files) {ms : List Match} (hms : Scans clock config d p f ms) :
    (run clock config r b).findings.filter
        (fun x => decide (x.detector = d.id ∧ x.position.path = f.path)) =
      (contributionOf clock config b d f).findings := by
  rw [findings_at hd hp clock b f.path]
  have hown : (b.files.flatMap fun g => if (b.holder g).path = f.path then
        (contributionOf clock config b d g).findings else []) =
      b.files.flatMap fun g => if g.path = f.path then
        (contributionOf clock config b d g).findings else [] := by
    apply List.flatMap_congr
    intro g hg
    cases hfindings : (contributionOf clock config b d g).findings with
    | nil => simp
    | cons x rest =>
      -- a file that adds a finding has a match, so its number leads back to it
      have hx : x ∈ (contributionOf clock config b d g).findings := by
        rw [hfindings]
        exact List.mem_cons_self
      obtain ⟨-, ns, hne, hns⟩ := of_mem_findings hp hx
      rw [Batch.holder_eq_self (hfirst g hg ns hns hne)]
  rw [hown, Lists.flatMap_ite_key b.paths_nodup hf]
  exact Finding.sort_eq_self (findings_inOrder b hp hms)

/-- A file with findings under its path is the first with its number. -/
theorem isFirst_of_mem_run {r : Registry} (hd : d ∈ r.enabled config)
    (hp : d.matcher = .textual p) (hf : f ∈ b.files) {x : Finding}
    (hx : x ∈ (run clock config r b).findings.filter
      fun x => decide (x.detector = d.id ∧ x.position.path = f.path)) : b.IsFirst f := by
  rw [findings_at hd hp clock b f.path, (Finding.sort_perm _).mem_iff] at hx
  -- the finding comes from a file `g` whose number leads to `f`
  obtain ⟨g, hg, hx⟩ := List.mem_flatMap.1 hx
  have hfirst := Batch.isFirst_holder hg
  split_ifs at hx with hpath
  · rwa [b.eq_of_path_eq hfirst.mem hf hpath] at hfirst
  · cases hx

/-- If every file with matches is the first with its number, each match of a file is shown in it. -/
theorem forall₂_marks_run {r : Registry} (hd : d ∈ r.enabled config)
    (hp : d.matcher = .textual p)
    (hfirst : ∀ f ∈ b.files, ∀ ms, Scans clock config d p f ms → ms ≠ [] → b.IsFirst f)
    (hf : f ∈ b.files) {ms : List Match} (hms : Scans clock config d p f ms) :
    List.Forall₂ (Finding.Marks f) ms ((run clock config r b).findings.filter
      fun x => decide (x.detector = d.id ∧ x.position.path = f.path)) := by
  rw [findings_at_eq hd hp hfirst hf hms, findings_of_scans b hp hms,
    List.forall₂_map_right_iff, List.forall₂_same]
  intro m hm
  have hholder := Batch.holder_eq_self (hfirst f hf ms hms (List.ne_nil_of_mem hm))
  exact finding_marks hholder hms hm

/-- If every file with matches is the first with its number, each finding is in a file that was
gone through. -/
theorem exists_scans_of_mem_run {r : Registry} (hd : d ∈ r.enabled config)
    (hp : d.matcher = .textual p)
    (hfirst : ∀ f ∈ b.files, ∀ ms, Scans clock config d p f ms → ms ≠ [] → b.IsFirst f)
    {x : Finding} (hx : x ∈ (run clock config r b).findings) (hid : x.detector = d.id) :
    ∃ f ∈ b.files, x.position.path = f.path ∧ ∃ ms, Scans clock config d p f ms := by
  have hat : x ∈ (run clock config r b).findings.filter
      fun y => decide (y.detector = d.id ∧ y.position.path = x.position.path) := by
    rw [List.mem_filter]
    exact ⟨hx, decide_eq_true ⟨hid, rfl⟩⟩
  rw [findings_at hd hp, (Finding.sort_perm _).mem_iff] at hat
  obtain ⟨g, hg, hat⟩ := List.mem_flatMap.1 hat
  split_ifs at hat with hpath
  · obtain ⟨-, ms, hne, hms⟩ := of_mem_findings hp hat
    rw [Batch.holder_eq_self (hfirst g hg ms hms hne)] at hpath
    exact ⟨g, hg, hpath.symm, ms, hms⟩
  · cases hat

/-- **Matches are shown in the files they are in** exactly if each file with matches is the first
of the batch with its number, whatever else the report holds. -/
theorem attributes_iff {r : Registry} (hd : d ∈ r.enabled config) (hp : d.matcher = .textual p)
    (clock : Clock) (b : Batch) :
    Attributes clock config b d p (run clock config r b) ↔
      ∀ f ∈ b.files, ∀ ms, Scans clock config d p f ms → ms ≠ [] → b.IsFirst f := by
  constructor
  · intro h f hf ms hms hne
    obtain ⟨m, rest, rfl⟩ := List.exists_cons_of_ne_nil hne
    -- the first match has a finding under the path of its file
    obtain ⟨x, _, _, _, hx⟩ := List.forall₂_cons_left_iff.1 (h.exact f hf _ hms)
    exact isFirst_of_mem_run hd hp hf (hx ▸ List.mem_cons_self)
  · intro hfirst
    constructor
    · intro f hf ms hms
      exact forall₂_marks_run hd hp hfirst hf hms
    · intro x hx hid
      exact exists_scans_of_mem_run hd hp hfirst hx hid

/-! ## A batch in which numbers clash -/

/-- The pattern that matches the letter `x`. -/
def letterPattern : Pattern :=
  { source := "x", regex := .char (.single 'x'), budget := 1000000 }

/-- A detector that looks for the letter `x`. -/
def letterDetector : Detector where
  id := "letter-x"
  title := "Letter x"
  description := "The letter x is used."
  severity := .low
  matcher := .textual letterPattern

/-- The registry with this detector only. -/
def letterRegistry : Registry :=
  .single letterDetector

/-- The first file brings the number `1` along, and the second gets it for its place. -/
def clashingBatch : Batch :=
  .after [.file { path := "a.sol", text := "", sourceId := some 1 },
    .file { path := "b.sol", text := "x" }]

theorem attributes_iff_clashing :
    (letterDetector ∈ letterRegistry.enabled {} ∧
        letterDetector.matcher = .textual letterPattern) ∧
      (Attributes (fun _ _ => 0) {} clashingBatch letterDetector letterPattern
          (run (fun _ _ => 0) {} letterRegistry clashingBatch) ↔
        ∀ f ∈ clashingBatch.files, ∀ ms,
          Scans (fun _ _ => 0) {} letterDetector letterPattern f ms → ms ≠ [] →
            clashingBatch.IsFirst f) :=
  ⟨⟨List.mem_cons_self, rfl⟩,
    attributes_iff List.mem_cons_self rfl (fun _ _ => 0) clashingBatch⟩

/-- The `x` in the second file is shown as if it were in the first, which is empty. -/
theorem not_attributes_clashing :
    clashingBatch.files.map (·.sourceId) = [some 1, some 1] ∧
      (run (fun _ _ => 0) {} letterRegistry clashingBatch).findings.map (·.position.path) =
        ["a.sol"] ∧
      ¬ Attributes (fun _ _ => 0) {} clashingBatch letterDetector letterPattern
        (run (fun _ _ => 0) {} letterRegistry clashingBatch) := by
  refine ⟨by decide +kernel, by decide +kernel, ?_⟩
  intro h
  have hmarks := h.exact { path := "b.sol", text := "x", sourceId := some 1 }
    (List.mem_cons_of_mem _ List.mem_cons_self) [⟨0, 1⟩] ⟨by decide +kernel, rfl⟩
  have hnone : (run (fun _ _ => 0) {} letterRegistry clashingBatch).findings.filter
      (fun x => decide (x.detector = letterDetector.id ∧ x.position.path = "b.sol")) = [] := by
    decide +kernel
  rw [hnone] at hmarks
  cases hmarks

end Engine

end SolidityScan
