/-
# Outcomes of scans

The findings and the diagnostics of a scan, each in its order.
-/
import SolidityScan.Json.Printer
import SolidityScan.Scan.Diagnostic
import SolidityScan.Scan.Finding

namespace SolidityScan

/-- The outcome of a scan. -/
structure ScanOutcome where
  findings : List Finding
  diagnostics : List Diagnostic
deriving DecidableEq, Repr

namespace ScanOutcome

/-- The outcome with the given findings and diagnostics, put in order. -/
def sorted (findings : List Finding) (diagnostics : List Diagnostic) : ScanOutcome :=
  { findings := Finding.sort findings, diagnostics := Diagnostic.sort diagnostics }

/-- The findings of a detector. -/
def findingsOf (o : ScanOutcome) (detector : String) : List Finding :=
  o.findings.filter fun f => decide (f.detector = detector)

/-- The number of findings in a tier. -/
def count (o : ScanOutcome) (severity : Severity) : Nat :=
  o.findings.countP fun f => decide (f.severity = severity)

/-- The number of findings in all tiers. -/
def total (o : ScanOutcome) : Nat :=
  (Severity.descending.map o.count).foldr (· + ·) 0

/-- There are no findings. -/
def isEmpty (o : ScanOutcome) : Bool :=
  o.findings.isEmpty

/-! ## JSON -/

/-- An outcome as a JSON value. -/
def toJson (o : ScanOutcome) : Json :=
  .obj [("instances", .arr (o.findings.map Finding.toJson)),
    ("diagnostics", .arr (o.diagnostics.map Diagnostic.toJson))]

/-- The outcome as an indented JSON text. -/
def text (o : ScanOutcome) : String :=
  o.toJson.pretty

/-- Reads the list under a key of an object. -/
def listOfJson? {α : Type} (read : Json → Option α) (v : Json) : Option (List α) := do
  (← v.items?).mapM read

/-- Reads an outcome as it is, without putting it in order. -/
def ofValues? (findings diagnostics : Json) : Option ScanOutcome := do
  let findings ← listOfJson? Finding.ofJson? findings
  let diagnostics ← listOfJson? Diagnostic.ofJson? diagnostics
  return { findings, diagnostics }

/-- Reads an outcome from an object, or from an array of its two lists. -/
def ofJson? : Json → Option ScanOutcome
  | .obj fields => do ofValues? (← fields.lookup "instances") (← fields.lookup "diagnostics")
  | .arr [findings, diagnostics] => ofValues? findings diagnostics
  | _ => none

end ScanOutcome

end SolidityScan
