/-
# The order of a scan does not matter

A scan may take its detectors, its files and the inputs that were left out in any order, and it may
join what the pairs contribute in any order: the report is the same, line by line.  The lines with
the same detector and path are those that the order of a report does not tell apart in full, and
they come from one pair.  So the order of its hits is all that is left of the order of the scan.

This takes two things.  Identifiers and paths must be unique, so that a detector and a path lead to
one pair; and a hit must be in the file on which it was found, or else it would be shown under the
path of another pair.

* `Batch.fileFor_eq_self` : such a hit is shown in the file on which it was found;
* `contributions_exclusive` : no two pairs have findings of one detector in one file;
* `joined_eq_run` : what the pairs contribute may be joined in any order.
-/
import Mathlib.Data.List.ProdSigma
import SolidityScan.Proofs.Registry
import SolidityScan.Proofs.Scan.Order
import SolidityScan.Proofs.Scan.Pairs
import SolidityScan.Proofs.Source.Lookup
import SolidityScan.Proofs.Source.Requests

namespace SolidityScan

/-! ## Hits in their own files -/

namespace Batch

/-- The hit, found on the file `f`, is in that file: it names no file, or `f` itself, or one that
the batch does not have. -/
def Owns (b : Batch) (f : SourceFile) (h : Hit) : Prop :=
  h.range.file = none ∨ h.range.file = f.sourceId ∨ ∀ g ∈ b.files, g.sourceId ≠ h.range.file

/-- If numbers are unique, such a hit is shown in the file on which it was found. -/
theorem fileFor_eq_self {b : Batch} {f : SourceFile} {h : Hit}
    (hnumbers : (b.files.map (·.sourceId)).Nodup) (hf : f ∈ b.files) (hown : b.Owns f h) :
    b.fileFor h.range f = f := by
  unfold fileFor
  cases hfile : h.range.file with
  | none => rfl
  | some id =>
    rw [Option.bind_some]
    cases hfound : b.bySourceId? id with
    | none => rfl
    | some g =>
      obtain ⟨hg, hid⟩ := of_bySourceId?_eq_some hfound
      rw [Option.getD_some]
      rcases hown with hnone | hself | hunknown
      · rw [hfile] at hnone
        cases hnone
      · refine List.inj_on_of_nodup_map hnumbers hg hf ?_
        rw [hid, ← hself, hfile]
      · exact absurd (hid.trans hfile.symm) (hunknown g hg)

theorem Owns.of_perm {b b' : Batch} {f : SourceFile} {h : Hit} (hown : b.Owns f h)
    (hfiles : b'.files.Perm b.files) : b'.Owns f h := by
  refine hown.imp_right fun hown => hown.imp_right fun hunknown => ?_
  intro g hg
  exact hunknown g (hfiles.mem_iff.1 hg)

end Batch

namespace Engine

/-- Every hit that one of the detectors returns on a file of the batch is in that file. -/
def OwnHits (detectors : List Detector) (b : Batch) : Prop :=
  ∀ d ∈ detectors, ∀ f ∈ b.files, ∀ hits, d.detect f = .hits hits → ∀ h ∈ hits, b.Owns f h

variable {clock : Clock} {config : Config} {detectors : List Detector} {b b' : Batch}
  {d : Detector} {f : SourceFile}

/-! ## What one pair contributes -/

/-- A pair sees of the batch only the files that its hits are in. -/
theorem contributionOf_congr_batch
    (h : ∀ hits, d.detect f = .hits hits → ∀ hit ∈ hits,
      b.fileFor hit.range f = b'.fileFor hit.range f) :
    contributionOf clock config b d f = contributionOf clock config b' d f := by
  unfold contributionOf contribution
  cases hd : d.detect f with
  | failed failure => rfl
  | panicked message => rfl
  | hits hits =>
    have hfile := h hits hd
    dsimp only
    cases exceeded? config (clock d f) with
    | some limit => rfl
    | none =>
      dsimp only [Detector.locate]
      congr 1
      · refine List.map_congr_left fun hit hhit => ?_
        unfold Detector.finding
        rw [hfile hit hhit]
      · refine List.filterMap_congr fun hit hhit => ?_
        unfold Detector.fallback?
        rw [hfile hit hhit]

/-- If hits are in their own files, the findings of a pair have the identifier of the detector and
the path of the file. -/
theorem isAt_of_mem_contributionOf (hnumbers : (b.files.map (·.sourceId)).Nodup)
    (hown : OwnHits detectors b) (hd : d ∈ detectors) (hf : f ∈ b.files) {x : Finding}
    (hx : x ∈ (contributionOf clock config b d f).findings) :
    x.detector = d.id ∧ x.position.path = f.path := by
  rw [findings_contributionOf] at hx
  obtain ⟨s, hs, rfl⟩ := List.mem_map.1 hx
  obtain ⟨rfl, rfl, hits, hhits, hhit⟩ := of_mem_sightingsOf hs
  refine ⟨rfl, ?_⟩
  have hself := Batch.fileFor_eq_self hnumbers hf (hown _ hd _ hf hits hhits _ hhit)
  show (Detector.positionOf (b.fileFor s.hit.range s.file) s.hit.range.offset).path = s.file.path
  rw [Detector.positionOf_path, hself]

/-! ## What all pairs contribute -/

/-- To go through the detectors, and for each through the files, is to go through the pairs. -/
theorem contributions_eq_map (clock : Clock) (config : Config) (detectors : List Detector)
    (b : Batch) :
    contributions clock config detectors b =
      (detectors ×ˢ b.files).map fun p => contributionOf clock config b p.1 p.2 := by
  show _ = (List.flatMap _ _).map _
  rw [List.map_flatMap]
  simp only [List.map_map]
  rfl

/-- No two pairs have findings of one detector in one file. -/
theorem contributions_exclusive (hdetectors : Registry.Ascending detectors)
    (hnumbers : (b.files.map (·.sourceId)).Nodup) (hown : OwnHits detectors b)
    (detector path : String) :
    (contributions clock config detectors b).Pairwise fun c c' =>
      c.findings.filter (Finding.isAt detector path) = [] ∨
        c'.findings.filter (Finding.isAt detector path) = [] := by
  have hnodup : (detectors ×ˢ b.files).Nodup :=
    hdetectors.nodup.product (b.paths_nodup.of_map _)
  rw [contributions_eq_map, List.pairwise_map]
  refine List.Pairwise.imp_of_mem ?_ hnodup
  rintro ⟨d, f⟩ ⟨d', f'⟩ hp hp' hne
  obtain ⟨hd, hf⟩ := List.mem_product.1 hp
  obtain ⟨hd', hf'⟩ := List.mem_product.1 hp'
  by_contra hboth
  push Not at hboth
  obtain ⟨x, hx⟩ := List.exists_mem_of_ne_nil _ hboth.1
  obtain ⟨y, hy⟩ := List.exists_mem_of_ne_nil _ hboth.2
  obtain ⟨hx, hxat⟩ := List.mem_filter.1 hx
  obtain ⟨hy, hyat⟩ := List.mem_filter.1 hy
  obtain ⟨hxd, hxf⟩ := isAt_of_mem_contributionOf hnumbers hown hd hf hx
  obtain ⟨hyd, hyf⟩ := isAt_of_mem_contributionOf hnumbers hown hd' hf' hy
  obtain ⟨hxdetector, hxpath⟩ := of_decide_eq_true hxat
  obtain ⟨hydetector, hypath⟩ := of_decide_eq_true hyat
  -- both findings lead back to the same pair
  have hdetector : d = d' := by
    refine hdetectors.eq_of_id_eq hd hd' ?_
    rw [← hxd, ← hyd, hxdetector, hydetector]
  have hfile : f = f' := by
    refine b.eq_of_path_eq hf hf' ?_
    rw [← hxf, ← hyf, hxpath, hypath]
  exact hne (by rw [hdetector, hfile])

/-- The outcome of contributions and of lines on inputs that were left out, joined as they come. -/
def joined (cs : List Contribution) (lines : List Diagnostic) : ScanOutcome :=
  .sorted (cs.flatMap (·.findings)) (lines ++ cs.flatMap (·.diagnostics))

/-- **The contributions of the pairs may be joined in any order**, and so may the lines on inputs
that were left out. -/
theorem joined_eq_run {registry : Registry} (hnumbers : (b.files.map (·.sourceId)).Nodup)
    (hown : OwnHits (registry.enabled config) b) {cs : List Contribution}
    {lines : List Diagnostic}
    (hcs : cs.Perm (contributions clock config (registry.enabled config) b))
    (hlines : lines.Perm (rejections (registry.enabled config) b)) :
    joined cs lines = run clock config registry b := by
  have hfindings : Finding.sort (cs.flatMap (·.findings)) =
      Finding.sort ((contributions clock config (registry.enabled config) b).flatMap
        (·.findings)) := by
    refine Finding.sort_congr fun detector path => ?_
    rw [List.filter_flatMap, List.filter_flatMap]
    symm
    exact Lists.flatMap_eq_of_perm hcs.symm
      (contributions_exclusive (registry.enabled_ascending config) hnumbers hown detector path)
  have hdiagnostics : Diagnostic.sort (lines ++ cs.flatMap (·.diagnostics)) =
      Diagnostic.sort (rejections (registry.enabled config) b ++
        (contributions clock config (registry.enabled config) b).flatMap (·.diagnostics)) :=
    Diagnostic.sort_eq_of_perm (hlines.append (hcs.flatMap_right _))
  unfold joined run ScanOutcome.sorted
  rw [hfindings, hdiagnostics]

/-! ## Other orders of detectors, files and inputs -/

/-- Another order of the files is another order of the contributions. -/
theorem contributions_perm (hnumbers : (b.files.map (·.sourceId)).Nodup)
    (hown : OwnHits detectors b) (hfiles : b'.files.Perm b.files) :
    (contributions clock config detectors b').Perm (contributions clock config detectors b) := by
  have hnumbers' : (b'.files.map (·.sourceId)).Nodup := (hfiles.map _).nodup_iff.2 hnumbers
  have hsame : contributions clock config detectors b' =
      (detectors ×ˢ b'.files).map fun p => contributionOf clock config b p.1 p.2 := by
    rw [contributions_eq_map]
    refine List.map_congr_left fun p hp => contributionOf_congr_batch ?_
    obtain ⟨hd, hf⟩ := List.mem_product.1 hp
    intro hits hhits hit hhit
    have howns := hown _ hd _ (hfiles.mem_iff.1 hf) hits hhits hit hhit
    rw [Batch.fileFor_eq_self hnumbers' hf (howns.of_perm hfiles),
      Batch.fileFor_eq_self hnumbers (hfiles.mem_iff.1 hf) howns]
  rw [hsame, contributions_eq_map]
  exact (hfiles.product_left detectors).map _

theorem rejections_perm (detectors : List Detector) (hrejected : b'.rejected.Perm b.rejected) :
    (rejections detectors b').Perm (rejections detectors b) :=
  hrejected.flatMap_right _

theorem OwnHits.subset {smaller : List Detector} (h : OwnHits detectors b)
    (hsub : smaller ⊆ detectors) : OwnHits smaller b :=
  fun d hd => h d (hsub hd)

/-- **A scan does not depend on any order.**  Detectors with distinct identifiers give the same
registry in whatever order they are listed.  If the files of a batch have distinct numbers and hits
are in the files on which they are found, another order of the files and of the inputs that were
left out gives the same outcome, and so does every order in which the contributions of the pairs are
joined.  All these scans share one clock: the time of a pair depends on its detector and its file
alone, not on when their turn comes. -/
theorem run_order_independent {detectors detectors' : List Detector} {b b' : Batch}
    (hids : (detectors.map (·.id)).Nodup)
    (hnumbers : (b.files.map (·.sourceId)).Nodup) (hown : OwnHits detectors b)
    (hdetectors : detectors'.Perm detectors) (hfiles : b'.files.Perm b.files)
    (hrejected : b'.rejected.Perm b.rejected) :
    (detectors ≠ [] → ∃ r, Registry.ofList detectors = .ok r) ∧
      Registry.ofList detectors' = Registry.ofList detectors ∧
      ∀ r, Registry.ofList detectors = .ok r → ∀ clock config,
        run clock config r b' = run clock config r b ∧
          ∀ cs lines, List.Perm cs (contributions clock config (r.enabled config) b') →
            List.Perm lines (rejections (r.enabled config) b') →
            joined cs lines = run clock config r b := by
  refine ⟨fun hne => Registry.exists_ofList_eq_ok hne hids,
    Registry.ofList_eq_of_perm hids hdetectors, ?_⟩
  intro r hr clock config
  have henabled : r.enabled config ⊆ detectors := by
    intro d hd
    exact (Registry.ofList_perm hr).mem_iff.1 (List.mem_filter.1 hd).1
  have hown := hown.subset henabled
  have hjoined : ∀ cs lines, List.Perm cs (contributions clock config (r.enabled config) b') →
      List.Perm lines (rejections (r.enabled config) b') →
      joined cs lines = run clock config r b := by
    intro cs lines hcs hlines
    exact joined_eq_run hnumbers hown
      (hcs.trans (contributions_perm hnumbers hown hfiles))
      (hlines.trans (rejections_perm _ hrejected))
  -- a scan of the other batch joins its contributions as they come
  exact ⟨hjoined _ _ (List.Perm.refl _) (List.Perm.refl _), hjoined⟩

/-! ## A scan in two orders -/

/-- A detector that reports two hits at the same place, the longer one first. -/
def twinDetector : Detector :=
  .reporting "twin" .low [{ range := { length := 2 } }, { range := { length := 1 } }]

/-- A detector that reports a hit in a file that is not there. -/
def strayDetector : Detector :=
  .reporting "stray" .high [{ range := { offset := 1, file := some 7 } }]

/-- A batch of two files with numbers of their own, to which two inputs were not accepted. -/
def twoFiles : Batch :=
  .after [.file { path := "b.sol", text := "xy", tree := .present default, sourceId := some 5 },
    .file { path := "a.sol", text := "z", tree := .present default, sourceId := some 3 },
    .bytes "d.sol" [255] none, .bytes "c.sol" [255] none]

/-- The same batch in the opposite order. -/
def twoFilesReversed : Batch :=
  .after [.file { path := "a.sol", text := "z", tree := .present default, sourceId := some 3 },
    .file { path := "b.sol", text := "xy", tree := .present default, sourceId := some 5 },
    .bytes "c.sol" [255] none, .bytes "d.sol" [255] none]

/-- The registry of the two detectors. -/
def twoDetectors : Registry where
  detectors := [strayDetector, twinDetector]
  ascending := by decide

theorem twoFiles_ownHits : OwnHits [twinDetector, strayDetector] twoFiles := by
  intro d hd f hf hits hhits h hh
  have hreturned : ∀ id severity found, d = .reporting id severity found → h ∈ found := by
    rintro id severity found rfl
    unfold Detector.detect Detector.reporting at hhits
    dsimp only at hhits
    split_ifs at hhits
    · cases hhits
      exact hh
    · cases hhits
      cases hh
  rw [List.mem_pair] at hd
  rcases hd with hd | hd
  · have hmem := hreturned _ _ _ hd
    rw [List.mem_pair] at hmem
    rcases hmem with rfl | rfl
    · exact Or.inl rfl
    · exact Or.inl rfl
  · have hmem := hreturned _ _ _ hd
    rw [List.mem_singleton] at hmem
    subst hmem
    refine Or.inr (Or.inr ?_)
    decide

theorem run_order_independent_twoFiles :
    OwnHits [twinDetector, strayDetector] twoFiles ∧
      Registry.ofList [strayDetector, twinDetector] =
        Registry.ofList [twinDetector, strayDetector] ∧
      twoFilesReversed.files.map (·.path) ≠ twoFiles.files.map (·.path) ∧
      run (fun _ _ => 0) {} twoDetectors twoFilesReversed =
        run (fun _ _ => 0) {} twoDetectors twoFiles ∧
      (contributions (fun _ _ => 0) {} twoDetectors.detectors twoFiles).map
        (·.findings.map (·.length)) = [[0], [0], [2, 1], [2, 1]] := by
  have hids : ([twinDetector, strayDetector].map (·.id)).Nodup := by decide
  have hnumbers : (twoFiles.files.map (·.sourceId)).Nodup := by decide
  have hswap : [strayDetector, twinDetector].Perm [twinDetector, strayDetector] :=
    List.Perm.swap twinDetector strayDetector []
  have hfiles : twoFilesReversed.files.Perm twoFiles.files := List.Perm.swap _ _ []
  have hrejected : twoFilesReversed.rejected.Perm twoFiles.rejected := List.Perm.swap _ _ []
  obtain ⟨-, hregistry, hrun⟩ := run_order_independent hids hnumbers twoFiles_ownHits hswap hfiles
    hrejected
  exact ⟨twoFiles_ownHits, hregistry, by decide +kernel, (hrun twoDetectors rfl _ _).1,
    by decide +kernel⟩

end Engine

end SolidityScan
