/-
# Writing JSON values

Two written forms: compact, without any blank, and indented by two spaces for each level.  Quotes,
backslashes and control characters are escaped, all other characters stand for themselves.
-/
import SolidityScan.Json.Basic

namespace SolidityScan

namespace JsonNumber

/-- The number in decimal. -/
def text : JsonNumber → String
  | int n => toString n
  | double x => x.text

end JsonNumber

namespace Json

/-! ## Strings -/

/-- A hexadecimal digit. -/
def hexDigit (n : Nat) : Char :=
  if n < 10 then Char.ofNat ('0'.toNat + n) else Char.ofNat ('a'.toNat + n - 10)

/-- A character inside quotes. -/
def escapeChar (c : Char) : List Char :=
  if c = '"' then ['\\', '"']
  else if c = '\\' then ['\\', '\\']
  else if c = '\x08' then ['\\', 'b']
  else if c = '\x0c' then ['\\', 'f']
  else if c = '\n' then ['\\', 'n']
  else if c = '\r' then ['\\', 'r']
  else if c = '\t' then ['\\', 't']
  else if c.toNat < 0x20 then
    ['\\', 'u', '0', '0', hexDigit (c.toNat / 16), hexDigit (c.toNat % 16)]
  else [c]

/-- A string in quotes. -/
def quote (s : String) : String :=
  String.ofList ('"' :: (s.toList.flatMap escapeChar ++ ['"']))

/-! ## Compact form -/

mutual

/-- The value without blanks. -/
def compact : Json → String
  | null => "null"
  | bool b => if b then "true" else "false"
  | num n => n.text
  | str s => quote s
  | arr items => "[" ++ compactItems items ++ "]"
  | obj fields => r"{" ++ compactFields fields ++ r"}"

/-- The items, with commas between them. -/
def compactItems : List Json → String
  | [] => ""
  | [v] => compact v
  | v :: rest => compact v ++ "," ++ compactItems rest

/-- The fields, with commas between them. -/
def compactFields : List (String × Json) → String
  | [] => ""
  | [(key, v)] => quote key ++ ":" ++ compact v
  | (key, v) :: rest => quote key ++ ":" ++ compact v ++ "," ++ compactFields rest

end

/-! ## Indented form -/

/-- A line break and the blanks of a level. -/
def newLine (level : Nat) : String :=
  String.ofList ('\n' :: List.replicate (2 * level) ' ')

mutual

/-- The value with one item or field a line, at the given level. -/
def indented (level : Nat) : Json → String
  | null => "null"
  | bool b => if b then "true" else "false"
  | num n => n.text
  | str s => quote s
  | arr [] => "[]"
  | arr (v :: rest) =>
    "[" ++ newLine (level + 1) ++ indented (level + 1) v ++ indentedItems (level + 1) rest ++
      newLine level ++ "]"
  | obj [] => r"{}"
  | obj ((key, v) :: rest) =>
    r"{" ++ newLine (level + 1) ++ quote key ++ ": " ++ indented (level + 1) v ++
      indentedFields (level + 1) rest ++ newLine level ++ r"}"

/-- The items after the first. -/
def indentedItems (level : Nat) : List Json → String
  | [] => ""
  | v :: rest => "," ++ newLine level ++ indented level v ++ indentedItems level rest

/-- The fields after the first. -/
def indentedFields (level : Nat) : List (String × Json) → String
  | [] => ""
  | (key, v) :: rest =>
    "," ++ newLine level ++ quote key ++ ": " ++ indented level v ++ indentedFields level rest

end

/-- The value, indented from the left margin. -/
def pretty (v : Json) : String :=
  v.indented 0

end Json

end SolidityScan
