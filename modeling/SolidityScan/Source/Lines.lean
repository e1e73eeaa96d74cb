/-
# Lines of a text

The offsets at which the lines of a text start, and the line and column of an offset.  Lines and
columns count from one and columns count bytes.
-/
import SolidityScan.Text.Slice

namespace SolidityScan

/-- The offsets of the line starts of a text, and its size in bytes.  The first line starts with the
text, every other one after the one before it, and none after the end of the text. -/
structure LineIndex where
  starts : List Nat
  size : Nat
  first : starts[0]? = some 0
  ascending : starts.Pairwise (· < ·)
  le_size : ∀ start ∈ starts, start ≤ size
deriving DecidableEq, Repr

namespace LineIndex

/-- The offsets right after the newlines of a text that starts at `offset`. -/
def afterNewlines (offset : Nat) : List Char → List Nat
  | [] => []
  | c :: rest =>
    let next := offset + c.utf8Size
    if c = '\n' then next :: afterNewlines next rest else afterNewlines next rest

/-- A newline ends inside the text that starts at the offset. -/
theorem bounds_of_mem_afterNewlines {offset start : Nat} {cs : List Char}
    (h : start ∈ afterNewlines offset cs) : offset < start ∧ start ≤ offset + Text.byteSize cs := by
  induction cs generalizing offset with
  | nil => cases h
  | cons c rest ih =>
    have hpos := c.utf8Size_pos
    have hrest : start ∈ afterNewlines (offset + c.utf8Size) rest →
        offset < start ∧ start ≤ offset + Text.byteSize (c :: rest) := by
      intro hmem
      have hbounds := ih hmem
      rw [Text.byteSize_cons]
      omega
    rw [afterNewlines] at h
    split at h
    · rcases List.mem_cons.1 h with rfl | hmem
      · rw [Text.byteSize_cons]
        omega
      · exact hrest hmem
    · exact hrest h

theorem afterNewlines_ascending (offset : Nat) (cs : List Char) :
    (afterNewlines offset cs).Pairwise (· < ·) := by
  induction cs generalizing offset with
  | nil => exact .nil
  | cons c rest ih =>
    rw [afterNewlines]
    split
    · exact List.pairwise_cons.2 ⟨fun start h => (bounds_of_mem_afterNewlines h).1, ih _⟩
    · exact ih _

/-- The index of a text. -/
def ofText (text : String) : LineIndex where
  starts := 0 :: afterNewlines 0 text.toList
  size := Text.byteSize text.toList
  first := rfl
  ascending := List.pairwise_cons.2
    ⟨fun _ h => (bounds_of_mem_afterNewlines h).1, afterNewlines_ascending 0 _⟩
  le_size := by
    refine List.forall_mem_cons.2 ⟨Nat.zero_le _, fun start h => ?_⟩
    have hbounds := bounds_of_mem_afterNewlines h
    omega

/-- The number of lines, one more than there are newlines. -/
def lineCount (x : LineIndex) : Nat :=
  x.starts.length

/-- The line and column of an offset; `none` past the end of the text. -/
def lineColumn? (x : LineIndex) (offset : Nat) : Option (Nat × Nat) := do
  if x.size < offset then none
  let line := x.starts.countP (· ≤ offset)
  let start ← x.starts[line - 1]?
  return (line, offset - start + 1)

/-- The offsets between which a line stands, without its newline. -/
def lineSpan? (x : LineIndex) (line : Nat) : Option (Nat × Nat) := do
  if line = 0 then none
  let start ← x.starts[line - 1]?
  let stop := match x.starts[line]? with
    | some next => next - 1
    | none => x.size
  return (start, max stop start)

end LineIndex

/-- A place in a named file. -/
structure Position where
  path : String
  line : Nat
  column : Nat
deriving DecidableEq, Repr

namespace Position

/-- The written form. -/
def text (p : Position) : String :=
  s!"{p.path}:{p.line}:{p.column}"

end Position

end SolidityScan
