/-
# Reading patterns

The written form of patterns: literals, escapes, classes, groups, alternation, repetition with its
lazy and possessive variants, assertions, lookaround, comments and flags.  A flag that is switched
on stays on to the end of the enclosing group with flags, or of the pattern.

What refers back to a group is left out: back references such as `\1` and `\k<name>`, conditionals
and calls of groups.  So the name of a group is passed over.  Left out as well are classes by
property (`\p`, `\P`), the assertions `\G` and `\Z`, the sign `\K` that moves the start of a match,
and word boundaries with braces.  A pattern that has one of these counts as malformed.
-/
import SolidityScan.Regex.Basic
import SolidityScan.Regex.CharClass

namespace SolidityScan.Regex

open Text

/-! ## Flags -/

/-- Switches that `(?imsUx)` sets. -/
structure Flags where
  caseless : Bool := false
  multiline : Bool := false
  dotAll : Bool := false
  /-- Repetition is lazy, and a question mark after it makes it greedy. -/
  lazy : Bool := false
  /-- Blanks and comments between items have no meaning. -/
  spaced : Bool := false

namespace Flags

/-- Sets one flag by its letter; `none` for an unknown letter. -/
def set? (f : Flags) (letter : Char) (on : Bool) : Option Flags :=
  match letter with
  | 'i' => some { f with caseless := on }
  | 'm' => some { f with multiline := on }
  | 's' => some { f with dotAll := on }
  | 'U' => some { f with lazy := on }
  | 'x' => some { f with spaced := on }
  | 'u' => if on then some f else none
  | _ => none

end Flags

/-- A character read literally, under the flags. -/
def literal (f : Flags) (c : Char) : Regex :=
  char (if f.caseless then .caseless c else .single c)

/-! ## Comments -/

/-- Goes over the rest of a comment in parentheses; a backslash takes away the meaning of the
character after it. -/
def afterComment? : List Char → Option (List Char)
  | [] => none
  | ')' :: rest => some rest
  | '\\' :: _ :: rest => afterComment? rest
  | _ :: rest => afterComment? rest

/-- Goes over comments and, if they have no meaning, blanks. -/
def skip? (f : Flags) : Nat → List Char → Option (List Char)
  | fuel + 1, '(' :: '?' :: '#' :: rest => (afterComment? rest).bind (skip? f fuel)
  | fuel + 1, c :: rest =>
    if f.spaced && c == '#' then
      skip? f fuel ((rest.dropWhile (· != '\n')).drop 1)
    else if f.spaced && [' ', '\t', '\r', '\n'].contains c then
      skip? f fuel rest
    else
      some (c :: rest)
  | _, cs => some cs

/-- Goes on to the next item. -/
def next? (f : Flags) (cs : List Char) : Option (List Char) :=
  skip? f cs.length cs

/-! ## Repetition -/

/-- One more than the greatest number that a count can have. -/
def countSize : Nat := Nat.pow 2 64

/-- Reads a decimal number, if there is a digit and the number is not too large. -/
def count? (cs : List Char) : Option (Nat × List Char) :=
  match cs.takeWhile Char.isDigit with
  | [] => none
  | digits =>
    let n := natOfDigits digits
    if n < countSize then some (n, cs.dropWhile Char.isDigit) else none

/-- Reads the bounds of a counted repetition after its opening brace.  The greatest count stands for
no bound at all. -/
def bounds? (f : Flags) (cs : List Char) : Option (Nat × Option Nat × List Char) := do
  let cs ← next? f cs
  let (least, rest) ← match cs with
    | ',' :: _ => some (0, cs)
    | _ => count? cs
  let rest ← next? f rest
  match rest with
  | '}' :: after => return (least, some least, after)
  | ',' :: more =>
    let more ← next? f more
    let (most, rest) := match count? more with
      | some (most, rest) => (some most, rest)
      | none => (none, more)
    match ← next? f rest with
    | '}' :: after => return (least, most.filter (· + 1 < countSize), after)
    | _ => none
  | _ => none

/-- Reads the repetition sign after an item, if there is one. -/
def repetition? (f : Flags) : List Char → Option (Nat × Option Nat × List Char)
  | '?' :: rest => some (0, some 1, rest)
  | '*' :: rest => some (0, none, rest)
  | '+' :: rest => some (1, none, rest)
  | '{' :: rest => bounds? f rest
  | _ => none

/-- Applies the repetition sign that follows an item, which has to be one that can be repeated. -/
def repeated? (f : Flags) (e : Regex) (cs : List Char) : Option (Regex × List Char) :=
  match repetition? f cs with
  | none => some (e, cs)
  | some (least, most, rest) => do
    guard e.isRepeatable
    let rest ← next? f rest
    let (greedy, rest) := match rest with
      | '?' :: rest => (f.lazy, rest)
      | _ => (!f.lazy, rest)
    match rest with
    | '+' :: rest => return (atomic (rep e least most greedy), rest)
    | _ => return (rep e least most greedy, rest)

/-! ## Items -/

/-- Reads what follows a backslash.  An escaped character is read exactly, also if case is left
aside. -/
def escape? (f : Flags) : List Char → Option (Regex × List Char)
  | [] => none
  | 'A' :: rest => some (assert .textStart, rest)
  | 'z' :: rest => some (assert .textEnd, rest)
  | 'b' :: '{' :: _ => none
  | 'b' :: rest => some (assert .wordBoundary, rest)
  | 'B' :: '{' :: _ => none
  | 'B' :: rest => some (assert .notWordBoundary, rest)
  | '<' :: rest => some (assert .wordStart, rest)
  | '>' :: rest => some (assert .wordEnd, rest)
  | e :: rest =>
    match CharSet.ofEscape? e, CharSet.codeDigits? e with
    | some s, _ => some (char s, rest)
    | none, some count => (CharSet.charCode? count rest).map fun (c, after) => (literal f c, after)
    | none, none => (CharSet.escaped? e).map fun c => (char (.single c), rest)

/-- Reads an item other than a group.  Before a sign that starts no item there is an empty one. -/
def atom? (f : Flags) : List Char → Option (Regex × List Char)
  | [] => some (empty, [])
  | '.' :: rest => some (char (if f.dotAll then .any else .notNewline), rest)
  | '^' :: rest => some (assert (if f.multiline then .lineStart else .textStart), rest)
  | '$' :: rest => some (assert (if f.multiline then .lineEnd else .textEnd), rest)
  | '[' :: rest => (CharSet.parse? f.caseless rest).map fun (s, rest) => (char s, rest)
  | '\\' :: rest => escape? f rest
  | c :: rest =>
    if ['+', '*', '?', '|', ')'].contains c then some (empty, c :: rest)
    else some (literal f c, rest)

/-! ## Groups -/

/-- How deeply groups may be nested. -/
def deepestGroup : Nat := 63

/-- What stands between `(` and the body of a group. -/
inductive GroupOpening where
  | capture
  /-- A group whose body is read with the given flags. -/
  | scoped (f : Flags)
  /-- Flags for what follows, without a body. -/
  | setting (f : Flags)
  | atomic
  | look (side : LookSide) (negated : Bool)

/-- Reads the name of a group up to the closing mark. -/
def groupName? (cs : List Char) : Option (List Char) :=
  let name := cs.takeWhile fun c => isWord c
  match cs.drop name.length with
  | '>' :: rest => if name.isEmpty then none else some rest
  | _ => none

/-- Reads the flags of a group up to the closing parenthesis or the colon; `read` tells how many
signs have been read, and `on` whether the next letters switch flags on. -/
def flagLetters? : Nat → Flags → Bool → Nat → List Char → Option (GroupOpening × List Char)
  | 0, _, _, _, _ => none
  | fuel + 1, f, on, read, cs => do
    match ← next? f cs with
    | [] => none
    | ')' :: rest => if read = 0 ∨ (read = 1 ∧ !on) then none else return (.setting f, rest)
    | ':' :: rest => if read = 1 ∧ !on then none else return (.scoped f, rest)
    | '-' :: rest => if on then flagLetters? fuel f false (read + 1) rest else none
    | c :: rest => do flagLetters? fuel (← f.set? c on) on (read + 1) rest

/-- Reads the opening of a group after its parenthesis. -/
def groupOpening? (f : Flags) : List Char → Option (GroupOpening × List Char)
  | '?' :: '=' :: rest => some (.look .ahead false, rest)
  | '?' :: '!' :: rest => some (.look .ahead true, rest)
  | '?' :: '<' :: '=' :: rest => some (.look .behind false, rest)
  | '?' :: '<' :: '!' :: rest => some (.look .behind true, rest)
  | '?' :: '<' :: rest => (groupName? rest).map (.capture, ·)
  | '?' :: 'P' :: '<' :: rest => (groupName? rest).map (.capture, ·)
  | '?' :: '>' :: rest => some (.atomic, rest)
  | '?' :: rest => flagLetters? (rest.length + 1) f true 0 rest
  | rest => some (.capture, rest)

/-- Passes the closing parenthesis of a group. -/
def afterGroup? (f : Flags) (cs : List Char) : Option (List Char) := do
  match ← next? f cs with
  | ')' :: rest => some rest
  | _ => none

mutual

/-- Reads branches up to a closing parenthesis or the end; `depth` groups are open. -/
def branches? : Nat → Nat → Flags → List Char → Option (Regex × Flags × List Char)
  | 0, _, _, _ => none
  | fuel + 1, depth, f, cs => do
    let (first, f, rest) ← branch? fuel depth f cs
    match ← next? f rest with
    | '|' :: rest =>
      let (others, f, rest) ← branches? fuel depth f rest
      return (alt first others, f, rest)
    | rest => return (first, f, rest)

/-- Reads items, each with its repetition sign, as long as there is one. -/
def branch? : Nat → Nat → Flags → List Char → Option (Regex × Flags × List Char)
  | 0, _, _, _ => none
  | fuel + 1, depth, f, cs => do
    let (item, f, rest) ← item? fuel depth f (← next? f cs)
    let (e, rest) ← repeated? f item (← next? f rest)
    if rest.length < cs.length then
      let (more, f, rest) ← branch? fuel depth f rest
      return (e.andThen more, f, rest)
    else
      return (e, f, rest)

/-- Reads an item.  A group without flags of its own leaves those that are set in it. -/
def item? : Nat → Nat → Flags → List Char → Option (Regex × Flags × List Char)
  | 0, _, _, _ => none
  | fuel + 1, depth, f, '(' :: cs => do
    guard (depth < deepestGroup)
    let (start, body) ← groupOpening? f (← next? f cs)
    match start with
    | .setting f => return (empty, f, body)
    | .scoped inner =>
      let (e, _, rest) ← branches? fuel (depth + 1) inner body
      match rest with
      | ')' :: rest => return (e.enclosed, f, rest)
      | _ => none
    | .capture =>
      let (e, f, rest) ← branches? fuel (depth + 1) f body
      return (group true e, f, ← afterGroup? f rest)
    | .atomic =>
      let (e, f, rest) ← branches? fuel (depth + 1) f body
      return (.atomic e, f, ← afterGroup? f rest)
    | .look side negated =>
      let (e, f, rest) ← branches? fuel (depth + 1) f body
      return (.look side negated e, f, ← afterGroup? f rest)
  | _ + 1, _, f, cs => do
    let (e, rest) ← atom? f cs
    return (e, f, rest)

end

/-- Reads a whole pattern as it is written; `none` if it is malformed. -/
def read? (source : String) : Option Regex :=
  let cs := source.toList
  match branches? (4 * cs.length + 4) 0 {} cs with
  | some (e, _, []) => some e
  | _ => none

end SolidityScan.Regex
