/-
# Findings

A place where the condition of a detector holds, as it is shown to the reader of a report.
-/
import SolidityScan.Severity
import SolidityScan.Source.Lines

namespace SolidityScan

/-- A place where the condition of a detector holds. -/
structure Finding where
  detector : String
  severity : Severity
  position : Position
  offset : Nat
  length : Nat
  message : Option String := none
  /-- The line of the finding. -/
  snippet : Option String := none
deriving DecidableEq, Repr

namespace Finding

/-! ## Order -/

/-- Findings are ordered by tier, the most serious first, then by detector, path and offset. -/
def order : Finding → Finding → Ordering :=
  compareLex (fun a b => compareOn (·.severity.rank) b a) <|
    compareLex (compareOn (·.detector)) <|
      compareLex (compareOn (·.position.path)) (compareOn (·.offset))

instance : Std.TransCmp order := by
  have : Std.TransCmp fun a b : Finding => compareOn (·.severity.rank) b a :=
    Std.TransCmp.opposite
  unfold order
  infer_instance

/-- The first finding does not come after the second. -/
def isBefore (a b : Finding) : Bool :=
  (order a b).isLE

/-- The findings in order; those that compare as equal keep their places. -/
def sort (findings : List Finding) : List Finding :=
  findings.mergeSort isBefore

theorem isBefore_trans {a b c : Finding} (hab : a.isBefore b) (hbc : b.isBefore c) :
    a.isBefore c :=
  Std.TransCmp.isLE_trans hab hbc

theorem isBefore_total (a b : Finding) : (a.isBefore b || b.isBefore a) = true := by
  have hswap : order b a = (order a b).swap := Std.OrientedCmp.eq_swap
  unfold isBefore
  rw [hswap]
  cases order a b <;> rfl

theorem sort_perm (findings : List Finding) : (sort findings).Perm findings :=
  List.mergeSort_perm _ _

/-- After sorting, no finding stands after one that it should precede. -/
theorem pairwise_sort (findings : List Finding) :
    (sort findings).Pairwise fun a b => a.isBefore b := by
  apply List.pairwise_mergeSort
  · intro a b c hab hbc
    exact isBefore_trans hab hbc
  · exact isBefore_total

/-! ## JSON -/

/-- A field that is left out where there is no value. -/
def optionalField (name : String) : Option String → List (String × Json)
  | none => []
  | some s => [(name, .str s)]

/-- A position as a JSON value. -/
def positionToJson (p : Position) : Json :=
  .obj [("path", .str p.path), ("line", .nat p.line), ("column", .nat p.column)]

/-- A finding as a JSON value. -/
def toJson (f : Finding) : Json :=
  .obj <|
    [("detector_id", .str f.detector), ("severity", f.severity.toJson),
      ("position", positionToJson f.position), ("offset", .nat f.offset),
      ("length", .nat f.length)] ++
    optionalField "message" f.message ++ optionalField "snippet" f.snippet

/-- A text that may be absent. -/
def optionalText? : Json → Option (Option String)
  | .null => some none
  | .str s => some (some s)
  | _ => none

/-- Reads a position: an object, or an array in the order of the fields. -/
def positionOfJson? : Json → Option Position
  | .obj fields => do
    let path ← (← fields.lookup "path").str?
    let line ← (← fields.lookup "line").word?
    let column ← (← fields.lookup "column").word?
    return { path, line, column }
  | .arr [path, line, column] => do
    return { path := ← path.str?, line := ← line.word?, column := ← column.word? }
  | _ => none

/-- Reads a finding from the values of its fields. -/
def ofValues? (detector severity position offset length message snippet : Json) :
    Option Finding := do
  let detector ← detector.str?
  let severity ← Severity.ofJson? severity
  let position ← positionOfJson? position
  let offset ← offset.word?
  let length ← length.word?
  let message ← optionalText? message
  let snippet ← optionalText? snippet
  return { detector, severity, position, offset, length, message, snippet }

/-- Reads a finding: an object, or an array in the order of the fields.  The message and the snippet
may be left out. -/
def ofJson? : Json → Option Finding
  | .obj fields => do
    ofValues? (← fields.lookup "detector_id") (← fields.lookup "severity")
      (← fields.lookup "position") (← fields.lookup "offset") (← fields.lookup "length")
      ((fields.lookup "message").getD .null) ((fields.lookup "snippet").getD .null)
  | .arr [detector, severity, position, offset, length] =>
    ofValues? detector severity position offset length .null .null
  | .arr [detector, severity, position, offset, length, message] =>
    ofValues? detector severity position offset length message .null
  | .arr [detector, severity, position, offset, length, message, snippet] =>
    ofValues? detector severity position offset length message snippet
  | _ => none

end Finding

end SolidityScan
