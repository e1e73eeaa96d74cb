/-
# Reports

The findings of a scan, grouped by tier and detector.
-/
import SolidityScan.Registry
import SolidityScan.Scan.Outcome

namespace SolidityScan

/-- The findings of one detector under its title and description. -/
structure DetectorSection where
  id : String
  title : String
  description : String
  findings : List Finding
deriving DecidableEq, Repr

/-- The detectors of one tier. -/
structure TierSection where
  severity : Severity
  detectors : List DetectorSection
deriving DecidableEq, Repr

/-- A report: the tiers that have detectors, each with the detectors that have findings. -/
structure Report where
  tiers : List TierSection
deriving DecidableEq, Repr

namespace Report

/-! ## Grouping -/

/-- Adds a finding at the end of the group of its detector; groups are in ascending order of
detectors. -/
def insertFinding (f : Finding) : List (String × List Finding) → List (String × List Finding)
  | [] => [(f.detector, [f])]
  | (id, group) :: rest =>
    if f.detector < id then (f.detector, [f]) :: (id, group) :: rest
    else if f.detector = id then (id, group ++ [f]) :: rest
    else (id, group) :: insertFinding f rest

/-- The findings of each detector that has some, in ascending order of detectors. -/
def groups (findings : List Finding) : List (String × List Finding) :=
  findings.foldl (fun done f => insertFinding f done) []

/-- The section of a detector, under its identifier alone if the registry does not know it. -/
def detectorSection (r : Registry) (id : String) (findings : List Finding) : DetectorSection :=
  match r.get? id with
  | some d => { id, title := d.title, description := d.description, findings }
  | none => { id, title := id, description := "", findings }

/-- The section of a tier: the detectors whose first finding is in that tier. -/
def tierSection (r : Registry) (groups : List (String × List Finding)) (severity : Severity) :
    TierSection :=
  let inTier := groups.filter fun (_, findings) =>
    findings.head?.any fun f => decide (f.severity = severity)
  { severity, detectors := inTier.map fun (id, findings) => detectorSection r id findings }

/-- The report of a scan. -/
def build (o : ScanOutcome) (r : Registry) : Report :=
  let tiers := Severity.descending.map (tierSection r (groups o.findings))
  { tiers := tiers.filter fun tier => !tier.detectors.isEmpty }

/-! ## Contents -/

/-- There are no findings. -/
def isEmpty (r : Report) : Bool :=
  r.tiers.isEmpty

/-- The number of findings. -/
def findingCount (r : Report) : Nat :=
  (r.tiers.flatMap (·.detectors)).map (·.findings.length) |>.foldr (· + ·) 0

/-! ## JSON -/

/-- The section of a detector as a JSON value. -/
def detectorToJson (d : DetectorSection) : Json :=
  .obj [("id", .str d.id), ("title", .str d.title), ("description", .str d.description),
    ("instances", .arr (d.findings.map Finding.toJson))]

/-- The section of a tier as a JSON value. -/
def tierToJson (t : TierSection) : Json :=
  .obj [("severity", t.severity.toJson), ("detectors", .arr (t.detectors.map detectorToJson))]

/-- The report as a JSON value. -/
def toJson (r : Report) : Json :=
  .obj [("tiers", .arr (r.tiers.map tierToJson))]

/-- The report as an indented JSON text. -/
def text (r : Report) : String :=
  r.toJson.pretty

end Report

end SolidityScan
