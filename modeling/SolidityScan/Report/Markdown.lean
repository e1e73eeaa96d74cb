/-
# Reports in Markdown

A table of the detectors of each tier, and after all tables a section for each detector with its
findings.  The rows of the tables link to the sections.
-/
import SolidityScan.Report.Basic
import SolidityScan.Text.Blank

namespace SolidityScan.Report

open Text

/-- The anchor of the detector with the given index in its tier. -/
def anchor (severity : Severity) (index : Nat) : String :=
  s!"{severity.code}-{index + 1}"

/-! ## The summary -/

/-- The row of a detector. -/
def summaryRow (severity : Severity) (d : DetectorSection) (index : Nat) : String :=
  let a := anchor severity index
  s!"| [{a}](#{a}) | {d.title} | {d.findings.length} |\n"

/-- The table of a tier. -/
def summaryTable (t : TierSection) : String :=
  s!"### {t.severity.emoji} {t.severity.title} Issues\n\n| |Issue|Instances|\n|-|:-|:-:|\n" ++
    String.join (t.detectors.mapIdx fun index d => summaryRow t.severity d index) ++ "\n"

/-! ## The findings -/

/-- The line of a finding. -/
def findingLine (f : Finding) : String :=
  let place := s!"{f.position.line}:{f.position.column}:"
  let snippet := f.snippet.elim "" fun s => s!" {s}"
  let message := f.message.elim "" fun s => s!" // {s}"
  String.ofList (trimEnd (place ++ snippet ++ message).toList) ++ "\n"

/-- The heading of a file, where the findings pass to another path. -/
def fileHeading (previous : Option String) (path : String) : String :=
  match previous with
  | none => s!"File: {path}\n\n"
  | some before => if before = path then "" else s!"\nFile: {path}\n\n"

/-- The lines of findings after one with the given path. -/
def findingLines (previous : Option String) : List Finding → String
  | [] => ""
  | f :: rest =>
    fileHeading previous f.position.path ++ findingLine f ++
      findingLines (some f.position.path) rest

/-- The findings between the fences of a block of code. -/
def codeBlock (findings : List Finding) : String :=
  "```solidity\n" ++ findingLines none findings ++ "```\n\n"

/-- The section of a detector. -/
def detectorText (severity : Severity) (d : DetectorSection) (index : Nat) : String :=
  let a := anchor severity index
  let description := if d.description.isEmpty then "" else d.description ++ "\n"
  s!"### <a name=\"{a}\"></a>[{a}] {d.title}\n" ++ description ++
    s!"\n*Instances ({d.findings.length})*:\n" ++ codeBlock d.findings

/-- The sections of a tier. -/
def tierText (t : TierSection) : String :=
  s!"## {t.severity.title} Issues\n\n" ++
    String.join (t.detectors.mapIdx fun index d => detectorText t.severity d index)

/-! ## The whole report -/

/-- The report in Markdown. -/
def markdown (r : Report) : String :=
  if r.isEmpty then
    "# Report\n"
  else
    "# Report\n\n## Summary\n\n" ++ String.join (r.tiers.map summaryTable) ++
      String.join (r.tiers.map tierText)

end SolidityScan.Report
