/-
# Source ranges

A stretch of bytes in a numbered source file, in the form in which the compiler attaches it to the
nodes of a syntax tree: `offset:length:file`.
-/
import SolidityScan.Text.Blank
import SolidityScan.Text.Numeral
import SolidityScan.Text.Slice

namespace SolidityScan

open Text

/-- The bytes from `offset` on, `length` of them, of the file with the given index if it is
known. -/
structure SourceRange where
  offset : Nat := 0
  length : Nat := 0
  file : Option Nat := none
deriving DecidableEq, Repr

namespace SourceRange

/-- Offsets and lengths are below this bound. -/
def offsetBound : Nat := Nat.pow 2 64

/-- File indices are written below this bound. -/
def indexBound : Nat := Nat.pow 2 63

/-- The offset right after the range, held at the largest offset there is. -/
def stop (r : SourceRange) : Nat :=
  min (r.offset + r.length) (offsetBound - 1)

/-! ## Written form -/

/-- The written form; an unknown file is written `-1`. -/
def text (r : SourceRange) : String :=
  match r.file with
  | some index => s!"{r.offset}:{r.length}:{index}"
  | none => s!"{r.offset}:{r.length}:-1"

/-- Reads an offset or a length. -/
def number? (part : List Char) : Option Nat :=
  unsigned? offsetBound (trim part)

/-- Reads a file index; a negative one stands for an unknown file. -/
def index? (part : List Char) : Option (Option Nat) :=
  (signed? indexBound (trim part)).map fun
    | .ofNat n => some n
    | .negSucc _ => none

/-- Reads the written form, with blanks around each number; the file may be left out. -/
def parse? (text : String) : Option SourceRange :=
  match split ':' text.toList with
  | [offset, length] => do
    return { offset := ← number? offset, length := ← number? length }
  | [offset, length, file] => do
    return { offset := ← number? offset, length := ← number? length, file := ← index? file }
  | _ => none

end SourceRange

end SolidityScan
