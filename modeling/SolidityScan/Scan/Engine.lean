/-
# Scanning

Every enabled detector runs on every file of a batch.  A pair of a detector and a file that fails
or takes too long contributes no findings and one diagnostic, and does not touch any other pair.
-/
import SolidityScan.Registry
import SolidityScan.Scan.Outcome
import SolidityScan.Source.Batch

namespace SolidityScan

/-- The time in nanoseconds that a detector takes on a file. -/
abbrev Clock := Detector → SourceFile → Nat

/-- The number of nanoseconds in a millisecond. -/
def nanosPerMilli : Nat := 1000000

/-- What one pair of a detector and a file contributes to a scan. -/
structure Contribution where
  findings : List Finding := []
  diagnostics : List Diagnostic := []
deriving DecidableEq, Repr

namespace Contribution

/-- The contribution of a pair that failed. -/
def failed (d : Detector) (f : SourceFile) (e : EngineError) : Contribution :=
  { diagnostics := [.ofError d.id f.path e] }

end Contribution

namespace Detector

/-! ## Hits and findings -/

/-- The position at which a hit is shown: where it starts, or the end of its file if it starts past
that. -/
def positionOf (target : SourceFile) (offset : Nat) : Position :=
  match target.resolve offset with
  | .ok position => position
  | .error _ => target.endPosition

/-- The finding for a hit in a file of a batch. -/
def finding (d : Detector) (b : Batch) (f : SourceFile) (snippets : Bool) (h : Hit) : Finding :=
  let target := b.fileFor h.range f
  { detector := d.id
    severity := d.severity
    position := positionOf target h.range.offset
    offset := h.range.offset
    length := h.range.length
    message := h.message
    snippet := if snippets then target.snippet? (min h.range.offset target.size) else none }

/-- The diagnostic for a hit that starts past the end of its file. -/
def fallback? (d : Detector) (b : Batch) (f : SourceFile) (h : Hit) : Option Diagnostic :=
  let target := b.fileFor h.range f
  match target.resolve h.range.offset with
  | .ok _ => none
  | .error e => some (.ofError d.id target.path e)

/-- The findings for the hits in a file of a batch, in order, and the diagnostics for those that
start past the end of their files. -/
def locate (d : Detector) (b : Batch) (f : SourceFile) (snippets : Bool) (hits : List Hit) :
    Contribution :=
  { findings := hits.map (d.finding b f snippets)
    diagnostics := hits.filterMap (d.fallback? b f) }

/-! ## Failures -/

/-- The error under which a failure of a detector is recorded: faults of the tree and failures of
detectors are kept, everything else is a failure of this detector. -/
def classify (d : Detector) : Failure → EngineError
  | .engine (.structural fault) => .structural fault
  | .engine (.detectorFailure detector reason) => .detectorFailure detector reason
  | .engine e => .detectorFailure d.id e.message
  | .foreign text => .detectorFailure d.id text

/-- The error under which a breakdown of a detector is recorded. -/
def breakdown (d : Detector) (message : Option String) : EngineError :=
  let told := message.getD "unknown panic payload"
  .detectorFailure d.id s!"panicked: {told}"

end Detector

namespace Engine

/-- The limit that a pair exceeds, if it takes longer than the configuration allows. -/
def exceeded? (config : Config) (elapsed : Nat) : Option Nat :=
  config.timeout.filter fun limit => limit * nanosPerMilli < elapsed

/-- The contribution of one pair, given how the detector ended and how long it took. -/
def contribution (config : Config) (b : Batch) (d : Detector) (f : SourceFile) (ending : Ending)
    (elapsed : Nat) : Contribution :=
  match ending with
  | .failed failure => .failed d f (d.classify failure)
  | .panicked message => .failed d f (d.breakdown message)
  | .hits hits =>
    match exceeded? config elapsed with
    | some limit => .failed d f (.timeout d.id limit)
    | none => d.locate b f config.snippets hits

/-- The diagnostics for the inputs that were left out, one for each detector. -/
def rejections (detectors : List Detector) (b : Batch) : List Diagnostic :=
  b.rejected.flatMap fun r => detectors.map fun d => .ofError d.id r.path r.error

/-- The contributions of all pairs. -/
def contributions (clock : Clock) (config : Config) (detectors : List Detector) (b : Batch) :
    List Contribution :=
  detectors.flatMap fun d => b.files.map fun f => contribution config b d f (d.detect f) (clock d f)

/-- Runs every enabled detector on every file. -/
def run (clock : Clock) (config : Config) (registry : Registry) (b : Batch) : ScanOutcome :=
  let detectors := registry.enabled config
  let pairs := contributions clock config detectors b
  .sorted (pairs.flatMap (·.findings)) (rejections detectors b ++ pairs.flatMap (·.diagnostics))

end Engine

end SolidityScan
