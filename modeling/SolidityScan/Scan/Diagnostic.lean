/-
# Diagnostics

The record of a fault that a scan met on its way.  It concerns one detector and, as a rule, one
file, and leaves everything else as it is.
-/
import SolidityScan.Error
import SolidityScan.Json.Basic

namespace SolidityScan

/-- The kinds of faults that a scan records. -/
inductive DiagnosticKind where
  | inputError
  | structuralError
  | detectorFailure
  | timeout
  | positionFallback
deriving DecidableEq, Repr

namespace DiagnosticKind

/-- All kinds in ascending order. -/
def all : List DiagnosticKind :=
  [inputError, structuralError, detectorFailure, timeout, positionFallback]

/-- The place of a kind among all kinds. -/
def rank : DiagnosticKind → Nat
  | inputError => 0
  | structuralError => 1
  | detectorFailure => 2
  | timeout => 3
  | positionFallback => 4

/-- The name in reports. -/
def name : DiagnosticKind → String
  | inputError => "input_error"
  | structuralError => "structural_error"
  | detectorFailure => "detector_failure"
  | timeout => "timeout"
  | positionFallback => "position_fallback"

/-- The kind with the given name. -/
def ofName? (s : String) : Option DiagnosticKind :=
  all.find? fun kind => decide (kind.name = s)

theorem ofName?_name (k : DiagnosticKind) : ofName? k.name = some k := by
  cases k <;> decide

/-- The kind under which an error is recorded. -/
def ofError : EngineError → DiagnosticKind
  | .input _ _ => inputError
  | .structural _ => structuralError
  | .timeout _ _ => timeout
  | .positionResolution _ _ _ => positionFallback
  | .detectorFailure _ _ => detectorFailure
  | .configuration _ => detectorFailure

/-- Reads a kind: its name, or an object with its name as the only key and `null` under it. -/
def ofJson? : Json → Option DiagnosticKind
  | .str s => ofName? s
  | .obj [(key, .null)] => ofName? key
  | _ => none

end DiagnosticKind

/-- The record of a fault. -/
structure Diagnostic where
  detector : String
  path : Option String
  kind : DiagnosticKind
  detail : String
deriving DecidableEq, Repr

namespace Diagnostic

/-- The record of an error of a detector on a file. -/
def ofError (detector : String) (path : String) (e : EngineError) : Diagnostic :=
  { detector, path := some path, kind := .ofError e, detail := e.message }

/-! ## Order -/

/-- Diagnostics are ordered by detector, path, kind and detail; one without a path comes first. -/
def order : Diagnostic → Diagnostic → Ordering :=
  compareLex (compareOn (·.detector)) <|
    compareLex (compareOn (·.path)) <|
      compareLex (compareOn (·.kind.rank)) (compareOn (·.detail))

instance : Std.TransCmp order := by
  unfold order
  infer_instance

/-- The first diagnostic does not come after the second. -/
def isBefore (a b : Diagnostic) : Bool :=
  (order a b).isLE

/-- The diagnostics in order. -/
def sort (diagnostics : List Diagnostic) : List Diagnostic :=
  diagnostics.mergeSort isBefore

theorem isBefore_trans {a b c : Diagnostic} (hab : a.isBefore b) (hbc : b.isBefore c) :
    a.isBefore c :=
  Std.TransCmp.isLE_trans hab hbc

theorem isBefore_total (a b : Diagnostic) : (a.isBefore b || b.isBefore a) = true := by
  have hswap : order b a = (order a b).swap := Std.OrientedCmp.eq_swap
  unfold isBefore
  rw [hswap]
  cases order a b <;> rfl

theorem sort_perm (diagnostics : List Diagnostic) : (sort diagnostics).Perm diagnostics :=
  List.mergeSort_perm _ _

/-- After sorting, no diagnostic stands after one that it should precede. -/
theorem pairwise_sort (diagnostics : List Diagnostic) :
    (sort diagnostics).Pairwise fun a b => a.isBefore b := by
  apply List.pairwise_mergeSort
  · intro a b c hab hbc
    exact isBefore_trans hab hbc
  · exact isBefore_total

/-! ## JSON -/

/-- A diagnostic as a JSON value. -/
def toJson (d : Diagnostic) : Json :=
  .obj <|
    [("detector_id", .str d.detector)] ++
    (d.path.elim [] fun path => [("path", .str path)]) ++
    [("kind", .str d.kind.name), ("detail", .str d.detail)]

/-- Reads a diagnostic from the values of its fields. -/
def ofValues? (detector path kind detail : Json) : Option Diagnostic := do
  let detector ← detector.str?
  let path ← match path with
    | .null => some none
    | path => path.str?.map some
  let kind ← DiagnosticKind.ofJson? kind
  let detail ← detail.str?
  return { detector, path, kind, detail }

/-- Reads a diagnostic: an object, in which the path may be left out, or an array in the order of
the fields. -/
def ofJson? : Json → Option Diagnostic
  | .obj fields => do
    ofValues? (← fields.lookup "detector_id") ((fields.lookup "path").getD .null)
      (← fields.lookup "kind") (← fields.lookup "detail")
  | .arr [detector, path, kind, detail] => ofValues? detector path kind detail
  | _ => none

end Diagnostic

end SolidityScan
