/-
# Classes of characters in brackets

The written form of sets of characters: characters, ranges, escapes, nested and named classes, and
the doubled operators of set arithmetic, all between brackets.
-/
import SolidityScan.Regex.CharSet
import SolidityScan.Text.Numeral

namespace SolidityScan.CharSet

open Text

/-! ## Escapes -/

/-- The set that a letter after a backslash stands for. -/
def ofEscape? : Char → Option CharSet
  | 'd' => some digit
  | 'D' => some (compl digit)
  | 's' => some blank
  | 'S' => some (compl blank)
  | 'w' => some word
  | 'W' => some (compl word)
  | 'h' => some hexDigit
  | 'H' => some (compl hexDigit)
  | _ => none

/-- The character that a character after a backslash stands for; a letter or a digit only does if it
is listed. -/
def escaped? : Char → Option Char
  | 'a' => some '\x07'
  | 'e' => some '\x1b'
  | 'f' => some '\x0c'
  | 'n' => some '\n'
  | 'r' => some '\r'
  | 't' => some '\t'
  | 'v' => some '\x0b'
  | c => if c.isAlphanum then none else some c

/-- The number of hexadecimal digits after an escape for the code of a character. -/
def codeDigits? : Char → Option Nat
  | 'x' => some 2
  | 'u' => some 4
  | 'U' => some 8
  | _ => none

/-- The character whose code the hexadecimal digits spell, if there is one. -/
def charOfCode? (digits : List Char) : Option Char := do
  let values ← digits.mapM hexValue?
  let n := values.foldl (fun n d => 16 * n + d) 0
  if n.isValidChar then some (Char.ofNat n) else none

/-- Reads the code of a character: the given number of digits, or up to eight in braces. -/
def charCode? (count : Nat) (cs : List Char) : Option (Char × List Char) :=
  let digits := cs.take count
  if digits.length = count ∧ digits.all (hexValue? · |>.isSome) then
    (charOfCode? digits).map (·, cs.drop count)
  else
    match cs with
    | '{' :: rest =>
      let digits := rest.takeWhile (hexValue? · |>.isSome)
      match rest.drop digits.length with
      | '}' :: after =>
        if digits.isEmpty || 8 < digits.length then none else (charOfCode? digits).map (·, after)
      | _ => none
    | _ => none

/-! ## Finding the end of a class -/

/-- What stands between the brackets of a class. -/
inductive Token where
  /-- A character that may have a meaning in the class. -/
  | mark (c : Char)
  /-- A character that stands for itself. -/
  | plain (c : Char)
  | set (s : CharSet)

/-- A character that has a meaning somewhere in patterns. -/
def isMeta (c : Char) : Bool :=
  ['\\', '.', '+', '*', '?', '(', ')', '|', '[', ']', '{', '}', '^', '$', '#', '&', '-',
    '~'].contains c

/-- An escaped character, which has no meaning of its own. -/
def Token.ofEscaped (c : Char) : Token :=
  if isMeta c then plain c else mark c

/-- Reads what follows a backslash in a class. -/
def escapeToken? : List Char → Option (Token × List Char)
  | [] => none
  | e :: rest =>
    match ofEscape? e, codeDigits? e with
    | some s, _ => some (.set s, rest)
    | none, some count => (charCode? count rest).map fun (c, after) => (.ofEscaped c, after)
    | none, none =>
      if e = 'b' then some (.plain '\x08', rest)
      else if ['A', 'B', 'G', 'K', 'k', 'z'].contains e then some (.mark e, rest)
      else (escaped? e).map fun c => (.ofEscaped c, rest)

/-- Reads a class up to the bracket that closes it, which is not kept; `depth` brackets are open
inside it. -/
def tokens? : Nat → Nat → List Char → Option (List Token × List Char)
  | 0, _, _ => none
  | _ + 1, _, [] => none
  | fuel + 1, depth, '\\' :: cs => do
    let (token, rest) ← escapeToken? cs
    let (tokens, rest) ← tokens? fuel depth rest
    return (token :: tokens, rest)
  | fuel + 1, depth, ']' :: rest =>
    match depth with
    | 0 => some ([], rest)
    | depth + 1 => (tokens? fuel depth rest).map fun (tokens, rest) => (.mark ']' :: tokens, rest)
  | fuel + 1, depth, c :: rest => do
    let (tokens, rest) ← tokens? fuel (if c = '[' then depth + 1 else depth) rest
    return (.mark c :: tokens, rest)

/-- The part of a class in which a closing bracket has no meaning: a sign of negation, and the
bracket if it comes first. -/
def opening : List Char → List Token × List Char
  | '^' :: ']' :: rest => ([.mark '^', .mark ']'], rest)
  | '^' :: rest => ([.mark '^'], rest)
  | ']' :: rest => ([.mark ']'], rest)
  | rest => ([], rest)

/-! ## Reading a class -/

/-- The operators between the parts of a class. -/
inductive Operator where
  | inter
  | without
  | either

/-- The set that an operator makes of two sets, of their case forms if case is left aside. -/
def Operator.apply (caseless : Bool) (op : Operator) (a b : CharSet) : CharSet :=
  let a := if caseless then folded a else a
  let b := if caseless then folded b else b
  match op with
  | .inter => CharSet.inter a b
  | .without => CharSet.without a b
  | .either => CharSet.either a b

/-- The operator that a doubled mark is. -/
def operator? : List Token → Option (Operator × List Token)
  | .mark '&' :: .mark '&' :: rest => some (.inter, rest)
  | .mark '-' :: .mark '-' :: rest => some (.without, rest)
  | .mark '~' :: .mark '~' :: rest => some (.either, rest)
  | _ => none

/-- The character of a mark. -/
def Token.mark? : Token → Option Char
  | mark c => some c
  | _ => none

/-- A mark with the given character. -/
def Token.isMark (c : Char) (t : Token) : Bool :=
  t.mark? == some c

/-- The set that a class is, after case and negation. -/
def finished (caseless negated : Bool) (s : CharSet) : CharSet :=
  let s := if caseless then folded s else s
  if negated then compl s else s

/-- Reads a named class after its opening bracket. -/
def named? (caseless : Bool) : List Token → Option (CharSet × List Token)
  | .mark ':' :: rest => do
    let (negated, rest) := match rest with
      | .mark '^' :: rest => (true, rest)
      | _ => (false, rest)
    let name := rest.takeWhile (!·.isMark ':')
    let letters ← name.mapM Token.mark?
    let s ← ofName? (String.ofList letters)
    match rest.drop name.length with
    | .mark ':' :: .mark ']' :: rest => return (finished caseless negated s, rest)
    | _ => none
  | _ => none

/-- Reads one character or set. -/
def item? : List Token → Option ((Char ⊕ CharSet) × List Token)
  | [] => none
  | .mark c :: rest => some (.inl c, rest)
  | .plain c :: rest => some (.inl c, rest)
  | .set s :: rest => some (.inr s, rest)

/-- Reads one character, set or range.  A hyphen makes a range unless it stands last or is
doubled. -/
def range? (tokens : List Token) : Option (CharSet × List Token) := do
  let (first, rest) ← item? tokens
  let alone := match first with
    | .inl c => single c
    | .inr s => s
  match rest with
  | .mark '-' :: after =>
    if after.head?.any (fun t => t.isMark ']' || t.isMark '-') then
      return (alone, rest)
    else
      match first, ← item? after with
      | .inl lo, (.inl hi, rest) => if lo ≤ hi then return (range lo hi, rest) else none
      | _, _ => none
  | _ => return (alone, rest)

/-- Hyphens at the start of a class stand for themselves, and so does a closing bracket in first
place. -/
def leading : List Token → List CharSet × List Token
  | .mark '-' :: rest =>
    (single '-' :: (rest.takeWhile (·.isMark '-')).map fun _ => single '-',
      rest.dropWhile (·.isMark '-'))
  | .mark ']' :: rest => ([single ']'], rest)
  | tokens => ([], tokens)

mutual

/-- Reads a class after its opening bracket, over the closing one. -/
def class? (caseless : Bool) : Nat → List Token → Option (CharSet × List Token)
  | 0, _ => none
  | fuel + 1, tokens => do
    let (negated, tokens) := match tokens with
      | .mark '^' :: rest => (true, rest)
      | _ => (false, tokens)
    let (items, tokens) := leading tokens
    let (s, rest) ← items? caseless fuel none (join items) tokens
    return (finished caseless negated s, rest)

/-- Reads the items of a class, over the closing bracket.  `left` is the part before the last
operator, and `s` what was read since. -/
def items? (caseless : Bool) :
    Nat → Option (Operator × CharSet) → CharSet → List Token → Option (CharSet × List Token)
  | 0, _, _, _ => none
  | _ + 1, _, _, [] => none
  | fuel + 1, left, s, token :: rest =>
    let whole := match left with
      | none => s
      | some (op, a) => op.apply caseless a s
    if token.isMark ']' then
      some (whole, rest)
    else if token.isMark '[' then
      match named? caseless rest with
      | some (t, rest) => items? caseless fuel left (union s t) rest
      | none => do
        let (t, rest) ← class? caseless fuel rest
        items? caseless fuel left (union s t) rest
    else
      match operator? (token :: rest) with
      | some (op, rest) => items? caseless fuel (some (op, whole)) nothing rest
      | none => do
        let (t, rest) ← range? (token :: rest)
        items? caseless fuel left (if s = nothing then t else union s t) rest

end

/-- Reads a class after its opening bracket; `none` if it is malformed. -/
def parse? (caseless : Bool) (cs : List Char) : Option (CharSet × List Char) := do
  let (first, cs) := opening cs
  let (tokens, rest) ← tokens? (cs.length + 1) 0 cs
  let all := first ++ tokens ++ [.mark ']']
  match ← class? caseless (2 * all.length + 2) all with
  | (s, []) => return (s, rest)
  | _ => none

end SolidityScan.CharSet
