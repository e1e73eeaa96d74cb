/-
# Places in a text and what a pattern does there

A pattern is followed from a place between two characters.  The outcome is where the preferred match
stops, and how many branches were given up before that.
-/
import SolidityScan.Regex.Basic

namespace SolidityScan

open Text

/-! ## Places -/

/-- A place between two characters, with its distance in bytes from the start. -/
structure Site where
  offset : Nat
  before : Option Char
  after : Option Char

namespace Site

/-- The places from a character on, given what stands before it. -/
def ofChars (offset : Nat) (before : Option Char) : List Char → List Site
  | [] => [⟨offset, before, none⟩]
  | c :: rest => ⟨offset, before, some c⟩ :: ofChars (offset + c.utf8Size) (some c) rest

/-- All places of a text, from its start to its end. -/
def all (text : List Char) : List Site :=
  ofChars 0 none text

end Site

namespace Assertion

/-- The assertion holds at the place. -/
def holds (s : Site) : Assertion → Bool
  | textStart => s.before.isNone
  | textEnd => s.after.isNone
  | lineStart => s.before.all (· == '\n')
  | lineEnd => s.after.all (· == '\n')
  | wordStart => !s.before.any isWord && s.after.any isWord
  | wordEnd => s.before.any isWord && !s.after.any isWord
  | wordBoundary => s.before.any isWord != s.after.any isWord
  | notWordBoundary => s.before.any isWord == s.after.any isWord

end Assertion

/-! ## Outcomes -/

/-- The outcome of following a pattern from a place: where the preferred match stops, if there is
one, and how many branches were given up before that. -/
structure Trial where
  stop : Option Nat
  abandoned : Nat
deriving DecidableEq, Repr

namespace Trial

/-- The end of the pattern at a place. -/
def accept (s : Site) : Trial :=
  ⟨some s.offset, 0⟩

/-- A branch that leads nowhere, at the given toll. -/
def deadEnd (toll : Nat) : Trial :=
  ⟨none, toll⟩

/-- The outcome after `n` more abandoned branches. -/
def after (n : Nat) (t : Trial) : Trial :=
  ⟨t.stop, n + t.abandoned⟩

/-- Tries `a`, and `b` if `a` leads nowhere. -/
def orElse (a b : Trial) : Trial :=
  match a.stop with
  | some _ => a
  | none => b.after a.abandoned

/-- Of another round and the way out, a greedy loop tries the round first. -/
def choose (greedy : Bool) (round out : Trial) : Trial :=
  if greedy then round.orElse out else out.orElse round

end Trial

/-- The outcome of a pattern at one place of a text. -/
structure Cell where
  offset : Nat
  trial : Trial

end SolidityScan
