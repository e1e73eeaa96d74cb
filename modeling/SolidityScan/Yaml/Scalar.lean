/-
# Scalars of YAML texts

Plain, single-quoted and double-quoted scalars.  A scalar may go on over several lines: a single
line break inside it reads as a space, and of several the first is dropped, unless it is one that is
kept.
-/
import SolidityScan.Text.Numeral
import SolidityScan.Yaml.Cursor

namespace SolidityScan.Yaml

open Text

/-- A scalar that was read, and the place after it, which is past the blanks and line breaks that
follow a plain scalar; `ended` tells that there were line breaks. -/
structure ScalarText where
  chars : List Char
  after : Cursor
  ended : Bool

/-- The scalar with more text in front. -/
def ScalarText.prepend (cs : List Char) (s : ScalarText) : ScalarText :=
  { s with chars := cs ++ s.chars }

/-! ## Gaps inside scalars -/

/-- What separates two parts of a scalar: blanks, or line breaks, of which the first may have been
escaped. -/
inductive Gap where
  | blanks (cs : List Char)
  | breaks (first : Option Char) (others : List Char)

namespace Gap

/-- What a gap reads as. -/
def chars : Gap → List Char
  | blanks cs => cs
  | breaks none others => others
  | breaks (some '\n') [] => [' ']
  | breaks (some '\n') others => others
  | breaks (some c) others => c :: others

/-- The gap holds line breaks. -/
def isBreaks : Gap → Bool
  | blanks _ => false
  | breaks _ _ => true

/-- The gap after one more blank; blanks after a line break do not count. -/
def addBlank (c : Char) : Gap → Gap
  | blanks cs => blanks (cs ++ [c])
  | breaks first others => breaks first others

/-- The gap after one more line break; blanks before the first do not count. -/
def addBreak (c : Char) : Gap → Gap
  | blanks _ => breaks (some c) []
  | breaks first others => breaks first (others ++ [c])

end Gap

/-- Reads blanks and line breaks after the gap seen so far.  On a new line no tab may stand before
the column `least`. -/
def readGap (least : Nat) : Nat → Gap → Cursor → Option (Gap × Cursor)
  | 0, _, _ => none
  | fuel + 1, seen, k =>
    match k.lineBreak? with
    | some (c, next) => readGap least fuel (seen.addBreak c) next
    | none =>
      match k.rest with
      | ' ' :: _ => readGap least fuel (seen.addBlank ' ') k.next
      | '\t' :: _ =>
        if seen.isBreaks && k.column < least then none
        else readGap least fuel (seen.addBlank '\t') k.next
      | _ => some (seen, k)

/-! ## Plain scalars -/

/-- A character that structures collections in brackets. -/
def isFlowMark (c : Char) : Bool :=
  ['[', ']', '{', '}', ','].contains c

/-- A character that no plain scalar starts with. -/
def isIndicator (c : Char) : Bool :=
  isFlowMark c ||
    ['#', '&', '*', '!', '|', '>', '\x27', '\x22', '%', '@', '\x60'].contains c

/-- A plain scalar can start with the text. -/
def startsPlain (flow : Bool) : List Char → Bool
  | [] => false
  | c :: rest =>
    if c = '-' then !rest.head?.any isBlankChar
    else if c = '?' ∨ c = ':' then !flow && !startsBlank rest
    else !startsBlank (c :: rest) && !isIndicator c

/-- A plain scalar ends before the text: before a colon that ends a key and, in brackets, before a
character that structures them. -/
def endsPlain (flow : Bool) : List Char → Bool
  | [] => true
  | c :: rest => (c == ':' && startsBlank rest) || (flow && isFlowMark c)

/-- In brackets no colon may stand before a character that structures them. -/
def misplacedColon (flow : Bool) : List Char → Bool
  | ':' :: d :: _ => flow && (isFlowMark d || d == '?')
  | _ => false

/-- Reads a plain scalar.  Outside brackets its further lines are indented by `least` columns.  It
also ends before a comment and at the end of the document. -/
def plainFrom (flow : Bool) (least : Nat) : Nat → Cursor → Option ScalarText
  | 0, _ => none
  | fuel + 1, k =>
    if k.rest.isEmpty then
      some ⟨[], k, false⟩
    else if startsBlank k.rest then do
      let (gap, next) ← readGap least (fuel + 1) (.blanks []) k
      if next.rest.isEmpty || next.atMarker || next.atChar (· == '#') ||
          (!flow && next.column < least) then
        some ⟨[], next, gap.isBreaks⟩
      else
        let more ← plainFrom flow least fuel next
        if more.chars.isEmpty then
          some ⟨[], next, gap.isBreaks⟩
        else
          some (more.prepend gap.chars)
    else if misplacedColon flow k.rest then
      none
    else if endsPlain flow k.rest then
      some ⟨[], k, false⟩
    else
      (plainFrom flow least fuel k.next).map (·.prepend (k.rest.take 1))

/-! ## Quoted scalars -/

/-- The character that a one-letter escape stands for. -/
def escaped? : Char → Option Char
  | '0' => some '\x00'
  | 'a' => some '\x07'
  | 'b' => some '\x08'
  | 't' => some '\t'
  | '\t' => some '\t'
  | 'n' => some '\n'
  | 'v' => some '\x0b'
  | 'f' => some '\x0c'
  | 'r' => some '\r'
  | 'e' => some '\x1b'
  | ' ' => some ' '
  | '\x22' => some '\x22'
  | '/' => some '/'
  | '\\' => some '\\'
  | 'N' => some '\u0085'
  | '_' => some '\u00a0'
  | 'L' => some '\u2028'
  | 'P' => some '\u2029'
  | _ => none

/-- The number of hexadecimal digits that belong to an escape. -/
def escapeDigits? : Char → Option Nat
  | 'x' => some 2
  | 'u' => some 4
  | 'U' => some 8
  | _ => none

/-- The character whose code the hexadecimal digits spell. -/
def charOfHex? (digits : List Char) : Option Char := do
  let values ← digits.mapM hexValue?
  let n := values.foldl (fun n d => 16 * n + d) 0
  if n.isValidChar then some (Char.ofNat n) else none

/-- Reads what an escape after a backslash stands for, and the number of characters that it takes
up. -/
def readEscape? : List Char → Option (Char × Nat)
  | [] => none
  | e :: rest =>
    match escapeDigits? e with
    | none => (escaped? e).map (·, 1)
    | some count =>
      if rest.length < count then none
      else (charOfHex? (rest.take count)).map (·, 1 + count)

/-- Reads a quoted scalar after its opening quote, over the closing one.  Between double quotes a
backslash starts an escape, or joins two lines; between single quotes a quote is written twice. -/
def quotedFrom (quote : Char) : Nat → Cursor → Option ScalarText
  | 0, _ => none
  | fuel + 1, k =>
    match k.rest with
    | [] => none
    | c :: rest =>
      if k.atMarker then
        none
      else if startsBlank k.rest then do
        let (gap, next) ← readGap 0 (fuel + 1) (.blanks []) k
        (quotedFrom quote fuel next).map (·.prepend gap.chars)
      else if c = quote then
        if quote = '\x27' ∧ rest.head? = some quote then
          (quotedFrom quote fuel (k.skip 2)).map (·.prepend [quote])
        else
          some ⟨[], k.next, false⟩
      else if c = '\\' ∧ quote = '\x22' then
        match k.next.lineBreak? with
        | some (_, next) => do
          let (gap, next) ← readGap 0 (fuel + 1) (.breaks none []) next
          (quotedFrom quote fuel next).map (·.prepend gap.chars)
        | none => do
          let (d, count) ← readEscape? rest
          (quotedFrom quote fuel (k.skip (1 + count))).map (·.prepend [d])
      else
        (quotedFrom quote fuel k.next).map (·.prepend [c])

end SolidityScan.Yaml
