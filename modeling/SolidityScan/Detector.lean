/-
# Detectors

A detector looks for one condition, in the text of a file or in its tree, and reports the ranges
where it holds.
-/
import SolidityScan.Pattern
import SolidityScan.Severity
import SolidityScan.Source.File
import SolidityScan.Tree.Walk

namespace SolidityScan

/-- A range where the condition of a detector holds, with a remark. -/
structure Hit where
  range : SourceRange
  message : Option String := none
deriving DecidableEq, Repr

/-- Why a detector fails on a file. -/
inductive Failure where
  | engine (e : EngineError)
  /-- A failure that the engine does not know; its causes are already joined to one text. -/
  | foreign (text : String)
deriving DecidableEq, Repr

/-- How a detector ends on a file. -/
inductive Ending where
  | hits (hits : List Hit)
  | failed (f : Failure)
  /-- The detector broke down, with a message if it left one. -/
  | panicked (message : Option String)
deriving DecidableEq, Repr

/-- A condition on syntax trees, reported by the ranges where it holds. -/
abbrev TreeRule := SyntaxNode → Except TreeFault (List Hit)

/-- How a detector finds its condition. -/
inductive Matcher where
  | textual (p : Pattern)
  /-- Any procedure on a file with a tree. -/
  | structural (run : SourceFile → Ending)

/-- A detector with the texts that describe it. -/
structure Detector where
  id : String
  title : String
  description : String
  severity : Severity
  matcher : Matcher

namespace Ending

/-- The end of a rule on the tree of a file. -/
def ofRule (rule : TreeRule) (f : SourceFile) : Ending :=
  match f.tree? with
  | none => .hits []
  | some root =>
    match rule root with
    | .ok found => .hits found
    | .error fault => .failed (.engine (.structural fault))

/-- The end of a scan of the text of a file. -/
def ofScan (p : Pattern) (f : SourceFile) : Ending :=
  match p.scan f.text with
  | .ok found => .hits (found.map fun m => { range := f.range m.start (m.stop - m.start) })
  | .error e => .failed (.foreign e.message)

end Ending

namespace Detector

/-! ## Definitions -/

/-- A detector that applies a rule to trees. -/
def ofRule (id title description : String) (severity : Severity) (rule : TreeRule) : Detector :=
  { id, title, description, severity, matcher := .structural (Ending.ofRule rule) }

/-- A detector that scans texts for a pattern. -/
def ofPattern (id title description : String) (severity : Severity) (source : String)
    (budget : Nat) : Except EngineError Detector :=
  match Pattern.compile source budget with
  | .ok p => .ok { id, title, description, severity, matcher := .textual p }
  | .error e => .error (.configuration (.inDetector id (.invalidPattern e.source)))

/-- The detector with a guard; only one that scans texts takes a guard. -/
def unlessPrecededBy (d : Detector) (source : String) (budget : Nat) :
    Except EngineError Detector :=
  match d.matcher with
  | .structural _ => .error (.configuration (.inDetector d.id .misplacedGuard))
  | .textual p =>
    match p.unlessPrecededBy source budget with
    | .ok p => .ok { d with matcher := .textual p }
    | .error e => .error (.configuration (.inDetector d.id (.invalidPattern e.source)))

/-- The detector scans texts. -/
def isTextual (d : Detector) : Bool :=
  match d.matcher with
  | .textual _ => true
  | .structural _ => false

/-! ## Running -/

/-- Runs the detector on a file.  One that inspects trees finds nothing in a file without one. -/
def detect (d : Detector) (f : SourceFile) : Ending :=
  match d.matcher with
  | .textual p => Ending.ofScan p f
  | .structural run => if f.tree?.isSome then run f else .hits []

end Detector

end SolidityScan
