/-
# The links of a report

A report in Markdown has a table for each tier, with a row for each detector that links to the
section of this detector further down.  Rows and sections are numbered apart, each in a pass of its
own.  The outline of a report says what is written where: the anchor of a row or a section is what
stands in its text, and nothing ties the two together but the passes that wrote them.

* `TierOutline`, `outlineText` : outlines and their Markdown;
* `markdown_eq_outlineText` : every report has an outline;
* `anchor_injective`, `nodup_anchors` : no two sections have the same anchor.
-/
import Mathlib.Data.List.Nodup
import SolidityScan.Proofs.Report.Grouping
import SolidityScan.Proofs.Text.Numerals
import SolidityScan.Report.Markdown

namespace SolidityScan

theorem Severity.code_injective {s t : Severity} (h : s.code = t.code) : s = t := by
  cases s <;> cases t <;> simp_all [code]

namespace Report

open Text

/-! ## Outlines -/

/-- A row of the summary: the anchor to which it links, and the title and the number that it
shows. -/
structure SummaryRow where
  anchor : String
  title : String
  count : Nat

/-- The row in Markdown. -/
def SummaryRow.text (row : SummaryRow) : String :=
  s!"| [{row.anchor}](#{row.anchor}) | {row.title} | {row.count} |\n"

/-- The section of a detector and the anchor that it defines. -/
structure AnchoredSection where
  anchor : String
  content : DetectorSection

/-- The section in Markdown. -/
def AnchoredSection.text (s : AnchoredSection) : String :=
  s!"### <a name=\"{s.anchor}\"></a>[{s.anchor}] {s.content.title}\n" ++
    (if s.content.description.isEmpty then "" else s.content.description ++ "\n") ++
    s!"\n*Instances ({s.content.findings.length})*:\n" ++ codeBlock s.content.findings

/-- The rows and the sections of a tier. -/
structure TierOutline where
  severity : Severity
  rows : List SummaryRow
  sections : List AnchoredSection

/-- The table of a tier, which is a part of the summary. -/
def TierOutline.table (t : TierOutline) : String :=
  s!"### {t.severity.emoji} {t.severity.title} Issues\n\n| |Issue|Instances|\n|-|:-|:-:|\n" ++
    String.join (t.rows.map SummaryRow.text) ++ "\n"

/-- The chapter of a tier, which comes after the summary. -/
def TierOutline.chapter (t : TierOutline) : String :=
  s!"## {t.severity.title} Issues\n\n" ++ String.join (t.sections.map AnchoredSection.text)

/-- A report with the given outline in Markdown: all tables, and then all chapters. -/
def outlineText (tiers : List TierOutline) : String :=
  if tiers.isEmpty then "# Report\n"
  else
    "# Report\n\n## Summary\n\n" ++ String.join (tiers.map TierOutline.table) ++
      String.join (tiers.map TierOutline.chapter)

/-- The outline of a tier. -/
def tierOutline (t : TierSection) : TierOutline where
  severity := t.severity
  rows := t.detectors.zipIdx.map fun p => ⟨anchor t.severity p.2, p.1.title, p.1.findings.length⟩
  sections := t.detectors.zipIdx.map fun p => ⟨anchor t.severity p.2, p.1⟩

theorem table_tierOutline (t : TierSection) : (tierOutline t).table = summaryTable t := by
  rw [TierOutline.table, tierOutline, summaryTable, List.mapIdx_eq_zipIdx_map, List.map_map]
  rfl

theorem chapter_tierOutline (t : TierSection) : (tierOutline t).chapter = tierText t := by
  rw [TierOutline.chapter, tierOutline, tierText, List.mapIdx_eq_zipIdx_map, List.map_map]
  rfl

theorem markdown_eq_outlineText (r : Report) :
    r.markdown = outlineText (r.tiers.map tierOutline) := by
  have htables : (r.tiers.map tierOutline).map TierOutline.table = r.tiers.map summaryTable := by
    rw [List.map_map]
    exact List.map_congr_left fun t _ => table_tierOutline t
  have hchapters : (r.tiers.map tierOutline).map TierOutline.chapter = r.tiers.map tierText := by
    rw [List.map_map]
    exact List.map_congr_left fun t _ => chapter_tierOutline t
  rw [outlineText, htables, hchapters, List.isEmpty_map]
  rfl

/-- What the row of a section has to say. -/
def AnchoredSection.row (s : AnchoredSection) : SummaryRow :=
  ⟨s.anchor, s.content.title, s.content.findings.length⟩

theorem rows_tierOutline (t : TierSection) :
    (tierOutline t).rows = (tierOutline t).sections.map AnchoredSection.row := by
  rw [tierOutline, List.map_map]
  rfl

theorem contents_tierOutline (t : TierSection) :
    (tierOutline t).sections.map (·.content) = t.detectors := by
  rw [tierOutline, List.map_map]
  exact List.zipIdx_map_fst 0 t.detectors

theorem anchors_tierOutline (t : TierSection) :
    (tierOutline t).sections.map (·.anchor) =
      (List.range t.detectors.length).map (anchor t.severity) := by
  have hindices : t.detectors.zipIdx.map Prod.snd = List.range t.detectors.length := by
    rw [List.zipIdx_map_snd, List.range_eq_range']
  rw [tierOutline, ← hindices, List.map_map, List.map_map]
  rfl

/-! ## Anchors -/

theorem toList_anchor (s : Severity) (index : Nat) :
    (anchor s index).toList = s.code.toList ++ '-' :: Nat.toDigits 10 (index + 1) := by
  have hdash : (toString "-").toList = ['-'] := rfl
  have hcode : toString s.code = s.code := rfl
  simp [anchor, Nat.toString_eq_repr, hdash, hcode]

/-- The letter tells the tier, and the number tells the place in it. -/
theorem anchor_injective {s t : Severity} {i j : Nat} (h : anchor s i = anchor t j) :
    s = t ∧ i = j := by
  have hchars := congrArg String.toList h
  rw [toList_anchor, toList_anchor] at hchars
  have hletter : ∀ s : Severity, s.code.toList.length = 1 := by
    intro s
    cases s <;> rfl
  obtain ⟨hcode, hnumber⟩ := List.append_inj hchars ((hletter s).trans (hletter t).symm)
  have hdigits := (List.cons.inj hnumber).2
  have hvalue : i + 1 = j + 1 := by
    rw [← (isDecimal_toDigits (i + 1)).value, hdigits, (isDecimal_toDigits (j + 1)).value]
  exact ⟨Severity.code_injective (String.toList_inj.1 hcode), by omega⟩

theorem nodup_anchors_tierOutline (t : TierSection) :
    ((tierOutline t).sections.map (·.anchor)).Nodup := by
  rw [anchors_tierOutline]
  exact List.nodup_range.map fun i j h => (anchor_injective h).2

/-- No two sections of a report have the same anchor, if no two tiers have the same severity. -/
theorem nodup_anchors {tiers : List TierSection}
    (h : tiers.Pairwise fun t u => u.severity.rank < t.severity.rank) :
    ((tiers.map tierOutline).flatMap fun t => t.sections.map (·.anchor)).Nodup := by
  rw [List.flatMap_map, List.nodup_flatMap]
  refine ⟨fun t _ => nodup_anchors_tierOutline t, h.imp ?_⟩
  -- an anchor in two tiers would have the letter of both
  intro t u hlt a ha hb
  simp only [anchors_tierOutline, List.mem_map] at ha hb
  obtain ⟨i, -, rfl⟩ := ha
  obtain ⟨j, -, hj⟩ := hb
  have hseverity := (anchor_injective hj).1
  rw [hseverity] at hlt
  exact Nat.lt_irrefl _ hlt

/-- **The links of a report lead where they say.**  The Markdown of a report has an outline, with
the tiers and sections of the report.  The anchors of the sections are all different, the rows of
the summary have these anchors in the same order, and a row shows the title and the number of
findings of the section to which it links. -/
theorem markdown_links (o : ScanOutcome) (registry : Registry) :
    ∃ outline : List TierOutline,
      (build o registry).markdown = outlineText outline ∧
      outline.map (fun t => (t.severity, t.sections.map (·.content))) =
        (build o registry).tiers.map (fun t => (t.severity, t.detectors)) ∧
      ((outline.flatMap (·.sections)).map (·.anchor)).Nodup ∧
      (outline.flatMap (·.rows)).map (·.anchor) = (outline.flatMap (·.sections)).map (·.anchor) ∧
      ∀ row ∈ outline.flatMap (·.rows), ∀ s ∈ outline.flatMap (·.sections),
        row.anchor = s.anchor →
          row.title = s.content.title ∧ row.count = s.content.findings.length := by
  let outline := (build o registry).tiers.map tierOutline
  have hrows :
      outline.flatMap (·.rows) = (outline.flatMap (·.sections)).map AnchoredSection.row := by
    simp only [outline, List.flatMap_map, List.map_flatMap, rows_tierOutline]
  have hnodup : ((outline.flatMap (·.sections)).map (·.anchor)).Nodup := by
    rw [List.map_flatMap]
    exact nodup_anchors (tiers_build_descending o registry)
  refine ⟨outline, markdown_eq_outlineText _, ?_, hnodup, ?_, ?_⟩
  · simp only [outline, List.map_map, Function.comp_def, contents_tierOutline]
    rfl
  · rw [hrows, List.map_map]
    rfl
  · intro row hrow s hs hanchor
    rw [hrows] at hrow
    obtain ⟨u, hu, rfl⟩ := List.mem_map.1 hrow
    -- the row was made for a section, and there is only one with its anchor
    have heq : u = s := List.inj_on_of_nodup_map hnodup hu hs hanchor
    rw [heq]
    exact ⟨rfl, rfl⟩

end Report

end SolidityScan
