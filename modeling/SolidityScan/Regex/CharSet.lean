/-
# Sets of characters

What a single-character item of a pattern accepts: characters, ranges and the three named classes,
joined by the operations on sets, possibly up to letter case.
-/
import SolidityScan.Text.Blank
import SolidityScan.Text.Letter

namespace SolidityScan

open Text

/-- A set of characters. -/
inductive CharSet where
  | nothing
  | single (c : Char)
  | range (first last : Char)
  | word
  | digit
  | blank
  | union (a b : CharSet)
  | inter (a b : CharSet)
  /-- What is in `a` and not in `b`. -/
  | without (a b : CharSet)
  /-- What is in one of the two sets only. -/
  | either (a b : CharSet)
  /-- The characters that differ from a member by case only. -/
  | folded (s : CharSet)
  | compl (s : CharSet)
deriving DecidableEq, Repr

namespace CharSet

/-- The set accepts the character. -/
def contains : CharSet → Char → Bool
  | nothing, _ => false
  | single d, c => c == d
  | range first last, c => decide (first ≤ c) && decide (c ≤ last)
  | word, c => isWord c
  | digit, c => isDigit c
  | blank, c => isBlank c
  | union a b, c => a.contains c || b.contains c
  | inter a b, c => a.contains c && b.contains c
  | without a b, c => a.contains c && !b.contains c
  | either a b, c => a.contains c != b.contains c
  | folded s, c => (caseForms c).any s.contains
  | compl s, c => !s.contains c

/-- The union of the sets. -/
def join : List CharSet → CharSet
  | [] => nothing
  | [s] => s
  | s :: rest => union s (join rest)

theorem contains_join (sets : List CharSet) (c : Char) :
    (join sets).contains c = sets.any (·.contains c) := by
  fun_induction join sets with
  | case1 => rfl
  | case2 s => simp
  | case3 s rest _ ih => simp [contains, ih]

/-- The set of the case forms of one character. -/
def caseless (c : Char) : CharSet :=
  join ((caseForms c).map single)

/-- Every character. -/
def any : CharSet :=
  compl nothing

/-- Every character that does not end a line. -/
def notNewline : CharSet :=
  compl (single '\n')

@[simp] theorem contains_single (c d : Char) : (single d).contains c = (c == d) := rfl

@[simp] theorem contains_compl (s : CharSet) (c : Char) : (compl s).contains c = !s.contains c :=
  rfl

@[simp] theorem contains_any (c : Char) : any.contains c = true := rfl

@[simp] theorem contains_notNewline (c : Char) : notNewline.contains c = (c != '\n') := rfl

/-- A hexadecimal digit. -/
def hexDigit : CharSet :=
  join [range '0' '9', range 'A' 'F', range 'a' 'f']

/-- The classes of ASCII characters that have a name. -/
def ofName? : String → Option CharSet
  | "alnum" => some (join [range '0' '9', range 'A' 'Z', range 'a' 'z'])
  | "alpha" => some (join [range 'A' 'Z', range 'a' 'z'])
  | "ascii" => some (range '\x00' '\x7f')
  | "blank" => some (join [single '\t', single ' '])
  | "cntrl" => some (join [range '\x00' '\x1f', single '\x7f'])
  | "digit" => some (range '0' '9')
  | "graph" => some (range '!' '~')
  | "lower" => some (range 'a' 'z')
  | "print" => some (range ' ' '~')
  | "punct" => some (join [range '!' '/', range ':' '@', range '[' '\x60', range '{' '~'])
  | "space" => some (join [range '\t' '\r', single ' '])
  | "upper" => some (range 'A' 'Z')
  | "word" => some (join [range '0' '9', range 'A' 'Z', single '_', range 'a' 'z'])
  | "xdigit" => some hexDigit
  | _ => none

end CharSet

end SolidityScan
