/-
# Text patterns with guards

A text pattern reports where its expression matches a text.  A guard drops the matches that stand
right after a text of a given shape.
-/
import SolidityScan.Regex.Search
import SolidityScan.Regex.Size

namespace SolidityScan

/-- How far back, in bytes, a guard can see from the start of a match. -/
def guardWindow : Nat := 512

/-- A condition on the text right before a match. -/
structure Guard where
  source : String
  regex : Regex
  budget : Nat

/-- An expression to look for in a text; each search may give up at most `budget` branches. -/
structure Pattern where
  source : String
  regex : Regex
  budget : Nat
  guard : Option Guard := none

/-- The written pattern is malformed. -/
structure PatternError where
  source : String

namespace PatternError

/-- The text of the error. -/
def message (e : PatternError) : String :=
  s!"invalid pattern /{e.source}/"

end PatternError

namespace Guard

/-- Reads a guard.  It has to match up to the very end of the text before a match. -/
def compile (source : String) (budget : Nat) : Except PatternError Guard :=
  let anchored := s!"(?:{source})$"
  match Regex.parse? anchored with
  | some regex => .ok { source, regex, budget }
  | none => .error ⟨anchored⟩

/-- The longest end of a text of at most `room` bytes, where the text is given backwards. -/
def tail (room : Nat) : List Char → List Char
  | [] => []
  | c :: rest => if c.utf8Size ≤ room then c :: tail (room - c.utf8Size) rest else []

/-- The characters before a byte offset, last one first; `done` precede the text. -/
def before (offset : Nat) (done : List Char) : List Char → List Char
  | [] => done
  | c :: rest => if offset = 0 then done else before (offset - c.utf8Size) (c :: done) rest

/-- The text that a guard sees from an offset. -/
def view (text : List Char) (offset : Nat) : List Char :=
  (tail guardWindow (before offset [] text)).reverse

/-- The guard holds at a byte offset of the text. -/
def holds (g : Guard) (text : List Char) (offset : Nat) : Except SearchError Bool := do
  let found ← Cell.find g.budget 0 (g.regex.cells (view text offset))
  return found.isSome

end Guard

namespace Pattern

/-- Reads a pattern without a guard. -/
def compile (source : String) (budget : Nat) : Except PatternError Pattern :=
  match Regex.parse? source with
  | some regex => .ok { source, regex, budget }
  | none => .error ⟨source⟩

/-- The pattern with a guard. -/
def unlessPrecededBy (p : Pattern) (source : String) (budget : Nat) :
    Except PatternError Pattern := do
  return { p with guard := some (← Guard.compile source budget) }

/-! ## Scanning -/

/-- The matches at the given places, where the match before them stopped at `last`.  An empty match
right at the end of the match before it is passed over. -/
def scanPlain (budget : Nat) (last : Option Nat) (cells : List Cell) :
    Except SearchError (List Match) :=
  match _found : Cell.find budget 0 cells with
  | .error e => .error e
  | .ok none => .ok []
  | .ok (some (m, rest)) => do
    let more ← scanPlain budget (some m.stop) (m.next rest)
    return if m.start = m.stop ∧ last = some m.stop then more else m :: more
termination_by cells.length
decreasing_by
  exact Nat.lt_of_le_of_lt (m.length_next_le rest) (Cell.length_lt_of_find _found)

/-- The matches at the given places at whose start the guard does not hold.  A match that the guard
drops does not use up its text. -/
def scanGuarded (budget : Nat) (holds : Nat → Except SearchError Bool) (cells : List Cell) :
    Except SearchError (List Match) :=
  match _found : Cell.find budget 0 cells with
  | .error e => .error e
  | .ok none => .ok []
  | .ok (some (m, rest)) => do
    if ← holds m.start then
      scanGuarded budget holds rest
    else
      return m :: (← scanGuarded budget holds (m.next rest))
termination_by cells.length
decreasing_by
  · exact Cell.length_lt_of_find _found
  · exact Nat.lt_of_le_of_lt (m.length_next_le rest) (Cell.length_lt_of_find _found)

/-- All matches of the pattern in a text, from left to right. -/
def scan (p : Pattern) (text : String) : Except SearchError (List Match) :=
  let chars := text.toList
  let cells := p.regex.cells chars
  match p.guard with
  | none => scanPlain p.budget none cells
  | some g => scanGuarded p.budget (g.holds chars) cells

end Pattern

end SolidityScan
