/-
# Where hits are shown

A hit is a range, and a range may point anywhere: into another file than the one it was found in,
under a number that no file has, inside a character, or past the end of everything.  It is shown all
the same, in the file that its number leads to or else in the file it was found in, and where its
offset lies past the end of that file, at the end.  The position is always one of the file, and only
a hit past the end leaves a diagnostic.

* `Detector.locatesIn_finding` : the position and the snippet of a finding;
* `Detector.locate_spec` : what is made of a list of hits.
-/
import SolidityScan.Proofs.Scan.Accounting
import SolidityScan.Proofs.Source.Lookup
import SolidityScan.Proofs.Source.Requests
import SolidityScan.Proofs.Source.Spans

namespace SolidityScan

/-- The finding shows the hit in the file: where the hit starts, or at the end of the file if it
starts past it, in a line of the file and in a column of that line or right after it. -/
structure Finding.LocatesIn (target : SourceFile) (snippets : Bool) (h : Hit) (x : Finding) :
    Prop where
  position : target.resolve (min h.range.offset target.size) = .ok x.position
  line : 1 ≤ x.position.line ∧ x.position.line ≤ target.lines.lineCount
  column : ∃ start stop, target.lines.lineSpan? x.position.line = some (start, stop) ∧
    1 ≤ x.position.column ∧ x.position.column ≤ stop - start + 1
  snippet : x.snippet =
    if snippets then target.snippet? (min h.range.offset target.size) else none

namespace Detector

/-- The contribution shows the hits, one finding for each, and has a diagnostic for each hit that
starts past the end of its file, all in the order of the hits. -/
structure Located (d : Detector) (b : Batch) (f : SourceFile) (snippets : Bool) (hits : List Hit)
    (c : Contribution) : Prop where
  target : ∀ h ∈ hits, b.Addresses h.range f (b.fileFor h.range f) ∧ b.fileFor h.range f ∈ b.files
  findings : List.Forall₂ (fun h x => Finding.Shows b ⟨d, f, h⟩ x ∧
    Finding.LocatesIn (b.fileFor h.range f) snippets h x) hits c.findings
  diagnostics : List.Forall₂
    (fun h => Diagnostic.Records d (b.fileFor h.range f).path .positionFallback)
    (hits.filter fun h => decide ((b.fileFor h.range f).size < h.range.offset)) c.diagnostics

/-- Every position that resolves is in a line of the file, and in a column of the line or right
after it. -/
theorem bounds_of_resolve {target : SourceFile} {offset : Nat} {position : Position}
    (h : target.resolve offset = .ok position) :
    (1 ≤ position.line ∧ position.line ≤ target.lines.lineCount) ∧
      ∃ start stop, target.lines.lineSpan? position.line = some (start, stop) ∧
        1 ≤ position.column ∧ position.column ≤ stop - start + 1 := by
  unfold SourceFile.resolve at h
  split at h
  · next line column hplace =>
    cases h
    obtain ⟨start, stop, hspan, hstart, hstop, rfl⟩ := LineIndex.lineColumn?_eq_some_iff.1 hplace
    refine ⟨(LineIndex.isSome_lineSpan?_iff _ _).1 (hspan ▸ rfl), start, stop, hspan, ?_, ?_⟩
    · exact Nat.le_add_left 1 _
    · exact Nat.add_le_add_right (Nat.sub_le_sub_right hstop start) 1
  · cases h

theorem locatesIn_finding (d : Detector) (b : Batch) (f : SourceFile) (snippets : Bool) (h : Hit) :
    Finding.LocatesIn (b.fileFor h.range f) snippets h (d.finding b f snippets h) := by
  have hposition := resolve_min_size (b.fileFor h.range f) h.range.offset
  obtain ⟨hline, hcolumn⟩ := bounds_of_resolve hposition
  exact ⟨hposition, hline, hcolumn, rfl⟩

/-- **Every hit is shown once and in order, at a position of its file**, and leaves a diagnostic
exactly if it starts past the end of that file. -/
theorem locate_spec (d : Detector) {b : Batch} {f : SourceFile} (hf : f ∈ b.files)
    (snippets : Bool) (hits : List Hit) :
    Located d b f snippets hits (d.locate b f snippets hits) where
  target h _ := ⟨b.addresses_fileFor h.range f, Batch.fileFor_mem hf h.range⟩
  findings := by
    show List.Forall₂ _ hits (hits.map _)
    rw [List.forall₂_map_right_iff, List.forall₂_same]
    intro h _
    exact ⟨⟨rfl, rfl, positionOf_path _ _, rfl, rfl, rfl⟩, d.locatesIn_finding b f snippets h⟩
  diagnostics := by
    have hrecords := Engine.fallbacks_record b d f hits
    rw [List.filter_map, List.forall₂_map_left_iff] at hrecords
    exact hrecords

/-- A file with a letter of two bytes and a newline. -/
def scatteredFile : SourceFile :=
  { path := "b.sol", text := "é\n", sourceId := some 1 }

/-- An empty file that brought its number along, and the file with the letter. -/
def scatteredBatch : Batch :=
  .after [.file { path := "a.sol", text := "", sourceId := some 3 },
    .file { path := "b.sol", text := "é\n" }]

/-- Hits inside the letter, past the end of the other file, under a number that no file has, and far
past the end. -/
def scatteredHits : List Hit :=
  [⟨⟨1, 1, some 1⟩, none⟩, ⟨⟨9, 2, some 3⟩, some "elsewhere"⟩, ⟨⟨3, 0, some 7⟩, none⟩,
    ⟨⟨Json.wordSize - 1, 1, none⟩, none⟩]

theorem locate_spec_scattered :
    let d := reporting "d" .low scatteredHits
    let c := d.locate scatteredBatch scatteredFile true scatteredHits
    scatteredFile ∈ scatteredBatch.files ∧
      Located d scatteredBatch scatteredFile true scatteredHits c ∧
      c.findings.map (·.position) =
        [⟨"b.sol", 1, 2⟩, ⟨"a.sol", 1, 1⟩, ⟨"b.sol", 2, 1⟩, ⟨"b.sol", 2, 1⟩] ∧
      c.findings.map (·.snippet) = [some "é", none, none, none] ∧
      c.diagnostics.map (·.path) = [some "a.sol", some "b.sol"] := by
  have hmem : scatteredFile ∈ scatteredBatch.files := List.mem_cons_of_mem _ List.mem_cons_self
  exact ⟨hmem, locate_spec _ hmem true scatteredHits, by decide +kernel, by decide +kernel,
    by decide +kernel⟩

end Detector

end SolidityScan
