/-
# Reading JSON texts

A strict reader: blanks are space, tab, carriage return and newline, strings hold no control
character, numbers have no superfluous zero, and nothing may follow the value.
-/
import SolidityScan.Json.Text

namespace SolidityScan.JsonText

open Text

/-! ## Blanks and literals -/

/-- The blanks that may stand between tokens. -/
def isGap (c : Char) : Bool :=
  c == ' ' || c == '\t' || c == '\n' || c == '\r'

/-- The text after its leading blanks. -/
def skipGap (cs : List Char) : List Char :=
  cs.dropWhile isGap

/-- The text after the given word, if it starts with it. -/
def after? : List Char → List Char → Option (List Char)
  | [], cs => some cs
  | w :: word, c :: cs => if w = c then after? word cs else none
  | _ :: _, [] => none

/-! ## Strings -/

/-- The 16-bit unit that four hexadecimal digits spell. -/
def unit? (a b c d : Char) : Option Nat := do
  return 4096 * (← hexValue? a) + 256 * (← hexValue? b) + 16 * (← hexValue? c) + (← hexValue? d)

/-- The character that a one-letter escape stands for. -/
def shortEscape? : Char → Option Char
  | '"' => some '"'
  | '\\' => some '\\'
  | '/' => some '/'
  | 'b' => some '\x08'
  | 'f' => some '\x0c'
  | 'n' => some '\n'
  | 'r' => some '\r'
  | 't' => some '\t'
  | _ => none

/-- Reads a string after its opening quote, up to and over the closing one. -/
def stringParts? : List Char → Option (List StringPart × List Char)
  | [] => none
  | '"' :: rest => some ([], rest)
  | '\\' :: 'u' :: a :: b :: c :: d :: rest => do
    let n ← unit? a b c d
    let (parts, rest) ← stringParts? rest
    return (.unit n :: parts, rest)
  | '\\' :: e :: rest => do
    let c ← shortEscape? e
    let (parts, rest) ← stringParts? rest
    return (.char c :: parts, rest)
  | c :: rest =>
    if c.toNat < 0x20 ∨ c = '\\' then none
    else do
      let (parts, rest) ← stringParts? rest
      return (.char c :: parts, rest)

/-! ## Numbers -/

/-- Reads one digit or more. -/
def digitRun? (cs : List Char) : Option (List Char × List Char) :=
  match cs.takeWhile Char.isDigit with
  | [] => none
  | digits => some (digits, cs.dropWhile Char.isDigit)

/-- Reads the part after a decimal point, if there is a point. -/
def fraction? : List Char → Option (Option (List Char) × List Char)
  | '.' :: rest => (digitRun? rest).map fun (digits, rest) => (some digits, rest)
  | rest => some (none, rest)

/-- Reads an exponent, if there is one; the sign tells whether it is negative. -/
def exponent? : List Char → Option (Option (Bool × List Char) × List Char)
  | c :: rest =>
    if c = 'e' ∨ c = 'E' then
      let (down, rest) := match rest with
        | '+' :: rest => (false, rest)
        | '-' :: rest => (true, rest)
        | rest => (false, rest)
      (digitRun? rest).map fun (digits, rest) => (some (down, digits), rest)
    else
      some (none, c :: rest)
  | [] => some (none, [])

/-- Reads a number. -/
def number? (cs : List Char) : Option (NumberText × List Char) := do
  let (negative, cs) := match cs with
    | '-' :: rest => (true, rest)
    | cs => (false, cs)
  let (whole, rest) ← digitRun? cs
  if whole.head? = some '0' ∧ 1 < whole.length then
    none
  let (fraction, rest) ← fraction? rest
  let (exponent, rest) ← exponent? rest
  return ({ negative, whole, fraction, exponent }, rest)

/-! ## Values -/

mutual

/-- Reads a value. -/
def value : Nat → List Char → Option (JsonText × List Char)
  | 0, _ => none
  | fuel + 1, cs =>
    match skipGap cs with
    | '{' :: rest =>
      match skipGap rest with
      | '}' :: rest => some (.object [], rest)
      | rest => (members fuel rest).map fun (fields, rest) => (.object fields, rest)
    | '[' :: rest =>
      match skipGap rest with
      | ']' :: rest => some (.array [], rest)
      | rest => (elements fuel rest).map fun (items, rest) => (.array items, rest)
    | '"' :: rest => (stringParts? rest).map fun (s, rest) => (.string s, rest)
    | 'n' :: rest => (after? ['u', 'l', 'l'] rest).map (.null, ·)
    | 't' :: rest => (after? ['r', 'u', 'e'] rest).map (.bool true, ·)
    | 'f' :: rest => (after? ['a', 'l', 's', 'e'] rest).map (.bool false, ·)
    | cs => (number? cs).map fun (n, rest) => (.number n, rest)

/-- Reads the items of an array, of which there is at least one, over the closing bracket. -/
def elements : Nat → List Char → Option (List JsonText × List Char)
  | 0, _ => none
  | fuel + 1, cs => do
    let (item, rest) ← value fuel cs
    match skipGap rest with
    | ',' :: rest => do
      let (items, rest) ← elements fuel rest
      return (item :: items, rest)
    | ']' :: rest => return ([item], rest)
    | _ => none

/-- Reads the fields of an object, of which there is at least one, over the closing brace. -/
def members : Nat → List Char → Option (List (List StringPart × JsonText) × List Char)
  | 0, _ => none
  | fuel + 1, cs =>
    match skipGap cs with
    | '"' :: rest => do
      let (key, rest) ← stringParts? rest
      match skipGap rest with
      | ':' :: rest => do
        let (item, rest) ← value fuel rest
        match skipGap rest with
        | ',' :: rest => do
          let (fields, rest) ← members fuel rest
          return ((key, item) :: fields, rest)
        | '}' :: rest => return ([(key, item)], rest)
        | _ => none
      | _ => none
    | _ => none

end

/-- Reads a whole text; `none` if it is not a JSON text. -/
def read? (text : String) : Option JsonText :=
  let cs := text.toList
  match value (2 * cs.length + 2) cs with
  | some (v, rest) => if (skipGap rest).isEmpty then some v else none
  | none => none

end SolidityScan.JsonText

namespace SolidityScan.Json

/-- The value that a text denotes; `none` if it is not a JSON text or denotes no value. -/
def parse? (text : String) : Option Json :=
  (JsonText.read? text).bind JsonText.value?

end SolidityScan.Json
