/-
# Tokens of YAML texts

A text is cut into scalars, the signs between them, and marks for where collections in block form
start and end.  Indentation opens and closes these collections.  Whether something is a key shows
only at the colon after it, so the sign of a key is then put in front of its first token.
-/
import SolidityScan.Yaml.Scalar

namespace SolidityScan.Yaml

/-- A token of a text. -/
inductive Token where
  | version (major minor : Nat)
  | documentStart
  | documentEnd
  | sequenceStart
  | mappingStart
  | blockEnd
  | flowSequenceStart
  | flowSequenceEnd
  | flowMappingStart
  | flowMappingEnd
  | flowEntry
  | entry
  | key
  | value
  | scalar (plain : Bool) (text : String)
deriving DecidableEq, Repr

/-- A place where a key may have started. -/
structure OpenKey where
  /-- The number of the token that the key would start with. -/
  token : Nat
  index : Nat
  line : Nat
  column : Nat
  /-- Nothing but a key can stand there. -/
  required : Bool

/-- A text that has been cut into tokens up to a place. -/
structure Scanner where
  cursor : Cursor
  /-- The tokens so far, the latest first. -/
  tokens : List Token := []
  /-- The number of tokens so far. -/
  count : Nat := 0
  /-- The columns of the open collections in block form, the innermost first. -/
  columns : List Nat := []
  /-- What may be a key, for each open bracket, the innermost first, and outside of brackets. -/
  keys : List (Option OpenKey) := [none]
  /-- A key may start at the cursor. -/
  keyAllowed : Bool := true

namespace Scanner

/-- The cursor is between brackets. -/
def inFlow (s : Scanner) : Bool :=
  !(s.keys.drop 1).isEmpty

/-- The scanner after one more token. -/
def push (s : Scanner) (t : Token) : Scanner :=
  { s with tokens := t :: s.tokens, count := s.count + 1 }

/-- The scanner with a token in front of the token with the given number. -/
def insert (s : Scanner) (number : Nat) (t : Token) : Scanner :=
  let recent := s.count - number
  { s with tokens := s.tokens.take recent ++ t :: s.tokens.drop recent, count := s.count + 1 }

/-- The scanner after a token that is `n` characters long. -/
def take (s : Scanner) (n : Nat) (t : Token) : Scanner :=
  { s.push t with cursor := s.cursor.skip n }

/-! ## Keys -/

/-- The number of bytes within which a key has to be followed by its colon. -/
def keyLimit : Nat := 1024

/-- The cursor is too far for the colon of a key: past its line, or past the limit. -/
def isStale (k : Cursor) (key : OpenKey) : Bool :=
  key.line < k.line || key.index + keyLimit < k.index

/-- What may still be a key in the innermost brackets. -/
def openKey? (s : Scanner) : Option OpenKey :=
  s.keys.head?.join.filter fun key => !isStale s.cursor key

/-- Forgets what may be a key in the innermost brackets; `none` if it has to be one. -/
def dropKey? (s : Scanner) : Option Scanner :=
  match s.keys with
  | [] => some s
  | key :: rest =>
    if key.any (·.required) then none else some { s with keys := none :: rest }

/-- Notes that a key may start at the cursor. -/
def saveKey? (s : Scanner) : Option Scanner :=
  if s.keyAllowed then do
    let s ← s.dropKey?
    let k := s.cursor
    let required := !s.inFlow && s.columns.head? == some k.column
    let key : OpenKey := ⟨s.count, k.index, k.line, k.column, required⟩
    return { s with keys := some key :: s.keys.drop 1 }
  else
    some s

/-! ## Indentation -/

/-- Opens a collection in block form if its column is further in; its mark is put in front of the
token with the given number. -/
def indent (s : Scanner) (column number : Nat) (t : Token) : Scanner :=
  if s.inFlow || s.columns.head?.any (column ≤ ·) then s
  else { s.insert number t with columns := column :: s.columns }

/-- Closes the collections in block form whose columns satisfy the condition. -/
def close (s : Scanner) (p : Nat → Bool) : Scanner :=
  if s.inFlow then s
  else
    let closed := s.columns.takeWhile p
    { s with
      tokens := closed.map (fun _ => .blockEnd) ++ s.tokens
      count := closed.length + s.count
      columns := s.columns.drop closed.length }

/-! ## Going on to the next token -/

/-- Goes over blanks, comments and line breaks.  A tab is a blank where no key can start. -/
def toToken : Nat → Scanner → Scanner
  | 0, s => s
  | fuel + 1, s =>
    let tabs := s.inFlow || !s.keyAllowed
    let k := s.cursor.skipWhile fun c => c == ' ' || (tabs && c == '\t')
    let k := k.skipComment
    match k.lineBreak? with
    | some (_, next) =>
      toToken fuel { s with cursor := next, keyAllowed := s.keyAllowed || !s.inFlow }
    | none => { s with cursor := k }

/-- Goes over a mark of the byte order at the start of the text. -/
def skipMark (s : Scanner) : Scanner :=
  if s.cursor.index == 0 && s.cursor.atChar (· == '\ufeff') then
    { s with cursor := s.cursor.next }
  else
    s

/-! ## Signs -/

/-- A mark of a document, which closes all collections. -/
def marker? (s : Scanner) (t : Token) : Option Scanner := do
  let s ← (s.close fun _ => true).dropKey?
  return { s.take 3 t with keyAllowed := false }

/-- An opening bracket, which may start a key. -/
def openFlow? (s : Scanner) (t : Token) : Option Scanner := do
  let s ← s.saveKey?
  return { s.take 1 t with keys := none :: s.keys, keyAllowed := true }

/-- A closing bracket. -/
def closeFlow? (s : Scanner) (t : Token) : Option Scanner := do
  let s ← s.dropKey?
  return { s.take 1 t with
    keys := if s.inFlow then s.keys.drop 1 else s.keys
    keyAllowed := false }

/-- A comma between brackets. -/
def flowEntry? (s : Scanner) : Option Scanner := do
  let s ← s.dropKey?
  return { s.take 1 .flowEntry with keyAllowed := true }

/-- A dash, which starts an item. -/
def entry? (s : Scanner) : Option Scanner := do
  guard (s.inFlow || s.keyAllowed)
  let s ← (s.indent s.cursor.column s.count .sequenceStart).dropKey?
  return { s.take 1 .entry with keyAllowed := true }

/-- A question mark, which starts a key. -/
def key? (s : Scanner) : Option Scanner := do
  guard (s.inFlow || s.keyAllowed)
  let s ← (s.indent s.cursor.column s.count .mappingStart).dropKey?
  return { s.take 1 .key with keyAllowed := !s.inFlow }

/-- A colon, which ends a key. -/
def value? (s : Scanner) : Option Scanner := do
  match s.openKey? with
  | some key =>
    let s := (s.insert key.token .key).indent key.column key.token .mappingStart
    return { s.take 1 .value with keys := none :: s.keys.drop 1, keyAllowed := false }
  | none =>
    guard (s.inFlow || s.keyAllowed)
    let s ← s.dropKey?
    let s := s.indent s.cursor.column s.count .mappingStart
    return { s.take 1 .value with keyAllowed := !s.inFlow }

/-- A scalar, which may be a key. -/
def scalar? (s : Scanner) (plain : Bool) (read : Cursor → Option ScalarText) : Option Scanner := do
  let s ← s.saveKey?
  let text ← read s.cursor
  return { s.push (.scalar plain (String.ofList text.chars)) with
    cursor := text.after
    keyAllowed := text.ended }

/-- Reads a number of at most nine digits. -/
def number? (k : Cursor) : Option (Nat × Cursor) :=
  let digits := k.rest.takeWhile Char.isDigit
  if digits.isEmpty || 9 < digits.length then none
  else some (Text.natOfDigits digits, k.skip digits.length)

/-- A directive, which tells the version of the format. -/
def directive? (s : Scanner) : Option Scanner := do
  let s ← (s.close fun _ => true).dropKey?
  guard (s.cursor.rest.take 5 == "%YAML".toList && s.cursor.rest[5]?.any isBlankChar)
  let (major, k) ← number? ((s.cursor.skip 5).skipWhile isBlankChar)
  guard (k.atChar (· == '.'))
  let (minor, k) ← number? k.next
  let k := (k.skipWhile isBlankChar).skipComment
  guard (startsBreak k.rest)
  return { s.push (.version major minor) with cursor := k, keyAllowed := false }

/-- The first column at which a further line of a plain scalar may start. -/
def leastColumn (s : Scanner) : Nat :=
  s.columns.head?.elim 0 (· + 1)

/-- Takes the next token, which is at most `fuel` characters long. -/
def token? (s : Scanner) (fuel : Nat) : Option Scanner :=
  let k := s.cursor
  let rest := k.rest.drop 1
  let signBefore := s.inFlow || startsBlank rest
  match k.rest.head? with
  | none => some s
  | some c =>
    if k.column == 0 && c == '%' then s.directive?
    else if k.atTriple '-' then s.marker? .documentStart
    else if k.atTriple '.' then s.marker? .documentEnd
    else if c == '[' then s.openFlow? .flowSequenceStart
    else if c == '{' then s.openFlow? .flowMappingStart
    else if c == ']' then s.closeFlow? .flowSequenceEnd
    else if c == '}' then s.closeFlow? .flowMappingEnd
    else if c == ',' then s.flowEntry?
    else if c == '-' && startsBlank rest then s.entry?
    else if c == '?' && signBefore then s.key?
    else if c == ':' && signBefore then s.value?
    else if c == '\x27' || c == '\x22' then
      s.scalar? false fun k => quotedFrom c fuel k.next
    else if startsPlain s.inFlow k.rest then
      s.scalar? true (plainFrom s.inFlow s.leastColumn fuel)
    else
      none

/-- Takes all tokens of the text, which has at most `fuel` more characters. -/
def finish? : Nat → Scanner → Option (List Token)
  | 0, _ => none
  | fuel + 1, s => do
    let s := toToken (fuel + 1) s.skipMark
    if s.cursor.rest.isEmpty then
      let s ← (s.close fun _ => true).dropKey?
      return s.tokens.reverse
    else
      let s := s.close (s.cursor.column < ·)
      finish? fuel (← s.token? (fuel + 1))

end Scanner

/-- A character that may stand in a text. -/
def isPrintable (c : Char) : Bool :=
  let n := c.toNat
  c == '\t' || c == '\n' || c == '\r' || c == '\u0085' || (0x20 ≤ n && n ≤ 0x7e) ||
    (0xa0 ≤ n && n ≤ 0xfffd) || 0x10000 ≤ n

/-- The tokens of a text; `none` if it cannot be cut into tokens. -/
def tokens? (text : String) : Option (List Token) :=
  let cs := text.toList
  if cs.all isPrintable then Scanner.finish? (cs.length + 1) { cursor := .start cs } else none

end SolidityScan.Yaml
