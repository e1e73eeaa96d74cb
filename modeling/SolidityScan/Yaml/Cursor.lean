/-
# Places in a YAML text

A cursor is what is left of a text together with the place where it stands.  A line ends with a
newline, a carriage return, both in that order, or one of three other characters, of which the last
two are kept where a scalar goes on over the end of a line.
-/

namespace SolidityScan.Yaml

/-- A space or a tab. -/
def isBlankChar (c : Char) : Bool :=
  c == ' ' || c == '\t'

/-- A character that ends a line. -/
def isBreakChar (c : Char) : Bool :=
  c == '\n' || c == '\r' || c == '\u0085' || c == '\u2028' || c == '\u2029'

/-- The text starts with a line break or is at its end. -/
def startsBreak (cs : List Char) : Bool :=
  cs.head?.all isBreakChar

/-- The text starts with a blank or a line break, or is at its end. -/
def startsBlank (cs : List Char) : Bool :=
  cs.head?.all fun c => isBlankChar c || isBreakChar c

/-- What is left of a text, the number of bytes before it, and the line and the column of its first
character. -/
structure Cursor where
  index : Nat
  line : Nat
  column : Nat
  rest : List Char
deriving Repr

namespace Cursor

/-- The start of a text. -/
def start (cs : List Char) : Cursor :=
  ⟨0, 0, 0, cs⟩

/-! ## What stands at a cursor -/

/-- The cursor stands at a character with the given property. -/
def atChar (k : Cursor) (p : Char → Bool) : Bool :=
  k.rest.head?.any p

/-- The line starts with the given character, three times, and a blank. -/
def atTriple (k : Cursor) (c : Char) : Bool :=
  k.column == 0 && k.rest.take 3 == [c, c, c] && startsBlank (k.rest.drop 3)

/-- The line starts with a mark of the start or the end of a document. -/
def atMarker (k : Cursor) : Bool :=
  k.atTriple '-' || k.atTriple '.'

/-! ## Moving on -/

/-- Goes over one character of the line. -/
def next (k : Cursor) : Cursor :=
  match k.rest with
  | [] => k
  | c :: rest => ⟨k.index + c.utf8Size, k.line, k.column + 1, rest⟩

/-- Goes over a number of characters of the line. -/
def skip (k : Cursor) (n : Nat) : Cursor :=
  n.repeat next k

/-- Goes over the characters of the line that have the given property. -/
def skipWhile (k : Cursor) (p : Char → Bool) : Cursor :=
  k.skip (k.rest.takeWhile p).length

/-- The cursor at the start of the next line, in front of the given text and after `n` bytes. -/
def newLine (k : Cursor) (n : Nat) (rest : List Char) : Cursor :=
  ⟨k.index + n, k.line + 1, 0, rest⟩

/-- Goes over a line break, and tells the character that it is read as. -/
def lineBreak? (k : Cursor) : Option (Char × Cursor) :=
  match k.rest with
  | '\r' :: '\n' :: rest => some ('\n', k.newLine 2 rest)
  | '\u2028' :: rest => some ('\u2028', k.newLine 3 rest)
  | '\u2029' :: rest => some ('\u2029', k.newLine 3 rest)
  | c :: rest => if isBreakChar c then some ('\n', k.newLine c.utf8Size rest) else none
  | [] => none

/-- Goes over a comment. -/
def skipComment (k : Cursor) : Cursor :=
  if k.atChar (· == '#') then k.skipWhile (!isBreakChar ·) else k

end Cursor

end SolidityScan.Yaml
