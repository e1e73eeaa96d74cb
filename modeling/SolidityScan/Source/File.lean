/-
# Source files

A named text with the syntax tree that belongs to it, if there is one, and the number under which
the ranges of trees refer to it.
-/
import SolidityScan.Source.Lines
import SolidityScan.Text.Blank
import SolidityScan.Tree.Intake

namespace SolidityScan

open Text

/-- The syntax tree of a file: none was given, it could not be read, or it is there. -/
inductive TreeStatus where
  | missing
  | faulty (fault : TreeFault)
  | present (root : SyntaxNode)

/-- A source file. -/
structure SourceFile where
  path : String
  text : String
  tree : TreeStatus := .missing
  sourceId : Option Nat := none

namespace SourceFile

/-! ## Reading files and trees -/

/-- The file with the given bytes as its text. -/
def ofBytes (path : String) (bytes : List UInt8) : Except EngineError SourceFile :=
  match Utf8.decode bytes with
  | .ok text => .ok { path, text }
  | .error e => .error (.input path (.notUtf8 e))

theorem ofBytes_path {path : String} {bytes : List UInt8} {f : SourceFile}
    (h : ofBytes path bytes = .ok f) : f.path = path := by
  unfold ofBytes at h
  split at h
  · cases h
    rfl
  · cases h

/-- Bytes are refused with an input error for their path. -/
theorem ofBytes_error {path : String} {bytes : List UInt8} {e : EngineError}
    (h : ofBytes path bytes = .error e) : ∃ fault, e = .input path fault := by
  unfold ofBytes at h
  split at h
  · cases h
  · cases h
    exact ⟨_, rfl⟩

/-- The file with the given tree. -/
def withTree (f : SourceFile) (root : SyntaxNode) : SourceFile :=
  { f with tree := .present root }

/-- The file with the outcome of reading its tree. -/
def withTreeResult (f : SourceFile) : Except TreeFault SyntaxNode → SourceFile
  | .ok root => f.withTree root
  | .error fault => { f with tree := .faulty fault }

/-- The tree inside a JSON value: what stands under `ast`, unless the value is a node itself. -/
def treeValue (v : Json) : Json :=
  match v.field? "ast" with
  | some inner => if v.isNode then v else inner
  | none => v

/-- The file with the tree that a JSON value describes. -/
def withTreeJson (f : SourceFile) (v : Json) : SourceFile :=
  f.withTreeResult (SyntaxNode.ofJson maxTreeDepth (treeValue v))

/-- The file with the tree that a JSON text describes. -/
def withTreeText (f : SourceFile) (text : String) : SourceFile :=
  match parseTreeJson text with
  | .ok v => f.withTreeJson v
  | .error fault => { f with tree := .faulty fault }

@[simp] theorem withTreeResult_path (f : SourceFile) (r : Except TreeFault SyntaxNode) :
    (f.withTreeResult r).path = f.path := by
  cases r <;> rfl

/-- Reading a tree leaves the path as it is, whether the tree can be read or not. -/
@[simp] theorem withTreeText_path (f : SourceFile) (text : String) :
    (f.withTreeText text).path = f.path := by
  unfold withTreeText
  cases parseTreeJson text with
  | ok v => exact withTreeResult_path f _
  | error fault => rfl

/-- The file with the given number. -/
def withSourceId (f : SourceFile) (id : Nat) : SourceFile :=
  { f with sourceId := some id }

/-! ## Contents -/

/-- The root of the tree, if it is there. -/
def tree? (f : SourceFile) : Option SyntaxNode :=
  match f.tree with
  | .present root => some root
  | _ => none

/-- Why the tree could not be read, if it could not. -/
def treeFault? (f : SourceFile) : Option TreeFault :=
  match f.tree with
  | .faulty fault => some fault
  | _ => none

/-- The size of the text in bytes. -/
def size (f : SourceFile) : Nat :=
  byteSize f.text.toList

/-- The lines of the text. -/
def lines (f : SourceFile) : LineIndex :=
  .ofText f.text

/-- A range in the file. -/
def range (f : SourceFile) (offset length : Nat) : SourceRange :=
  { offset, length, file := f.sourceId }

/-! ## Positions -/

/-- The position of an offset, which may be the end of the text but not lie past it. -/
def resolve (f : SourceFile) (offset : Nat) : Except EngineError Position :=
  match f.lines.lineColumn? offset with
  | some (line, column) => .ok { path := f.path, line, column }
  | none => .error (.positionResolution f.path offset f.size)

/-- The position of the end of the text. -/
def endPosition (f : SourceFile) : Position :=
  let (line, column) := (f.lines.lineColumn? f.size).getD (1, 1)
  { path := f.path, line, column }

/-- The line that holds an offset, without blanks around it; `none` for a blank line. -/
def snippet? (f : SourceFile) (offset : Nat) : Option String := do
  let (line, _) ← f.lines.lineColumn? offset
  let (start, stop) ← f.lines.lineSpan? line
  let content := trim (← slice? f.text.toList start stop)
  if content.isEmpty then none else some (String.ofList content)

end SourceFile

end SolidityScan
