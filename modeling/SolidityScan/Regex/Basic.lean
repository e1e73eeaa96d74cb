/-
# Regular expressions with lookaround

The patterns that textual rules are made of.  Repetition carries its bounds and its preference, and
a lookaround asks about the text ahead or behind without consuming any.
-/
import SolidityScan.Regex.CharSet

namespace SolidityScan

/-- A condition on the place between two characters. -/
inductive Assertion where
  | textStart
  | textEnd
  | lineStart
  | lineEnd
  | wordStart
  | wordEnd
  | wordBoundary
  | notWordBoundary
deriving DecidableEq, Repr

/-- The assertion compares the characters on both sides of the place. -/
def Assertion.isBoundary : Assertion → Bool
  | wordStart | wordEnd | wordBoundary | notWordBoundary => true
  | textStart | textEnd | lineStart | lineEnd => false

/-- The side that a lookaround inspects. -/
inductive LookSide where
  | ahead
  | behind
deriving DecidableEq, Repr

/-- A pattern.  In `alt` the left side is preferred; a greedy `rep` prefers more repetitions; an
`atomic` part keeps to its first match. -/
inductive Regex where
  | empty
  | char (s : CharSet)
  | assert (a : Assertion)
  | seq (a b : Regex)
  | alt (a b : Regex)
  | rep (e : Regex) (least : Nat) (most : Option Nat) (greedy : Bool)
  | group (captured : Bool) (e : Regex)
  | atomic (e : Regex)
  | look (side : LookSide) (negated : Bool) (e : Regex)
deriving DecidableEq, Repr

namespace Regex

/-! ## Building patterns -/

/-- The items `a` and then `b`, where an empty one adds nothing. -/
def andThen (a b : Regex) : Regex :=
  match a, b with
  | empty, b => b
  | a, empty => a
  | a, b => seq a b

/-- The items one after the other. -/
def sequence (items : List Regex) : Regex :=
  items.foldr andThen empty

/-- The branches in order of preference. -/
def choice : List Regex → Regex
  | [] => empty
  | [e] => e
  | e :: rest => alt e (choice rest)

/-- The pattern in parentheses that only hold it together. -/
def enclosed (e : Regex) : Regex :=
  match e with
  | alt a b => group false (alt a b)
  | e => e

/-! ## Shape -/

/-- The pattern without the parentheses that only hold it together. -/
def bare : Regex → Regex
  | group false e => e.bare
  | e => e

/-- The branches at the top of a pattern, in order of preference. -/
def branches : Regex → List Regex
  | alt a b => a :: b.branches
  | e => [e]

/-- An item can be repeated if it may consume something or is a captured group. -/
def isRepeatable : Regex → Bool
  | empty | assert _ | look _ _ _ => false
  | group false e => e.isRepeatable
  | _ => true

/-- The number of characters that every match has, if it is the same for all. -/
def width? : Regex → Option Nat
  | empty => some 0
  | char _ => some 1
  | assert _ => some 0
  | seq a b => do return (← a.width?) + (← b.width?)
  | alt a b =>
    match a.width?, b.width? with
    | some m, some n => if m = n then some m else none
    | _, _ => none
  | rep e least most _ => if most = some least then e.width?.map (· * least) else none
  | group _ e => e.width?
  | atomic e => e.width?
  | look _ _ _ => some 0

/-- The number of characters that every match has at least. -/
def leastWidth : Regex → Nat
  | empty => 0
  | char _ => 1
  | assert _ => 0
  | seq a b => a.leastWidth + b.leastWidth
  | alt a b => min a.leastWidth b.leastWidth
  | rep e least _ _ => e.leastWidth * least
  | group _ e => e.leastWidth
  | atomic e => e.leastWidth
  | look _ _ _ => 0

/-- The pattern asks for a lookaround, a word boundary or an atomic part. -/
def backtracks : Regex → Bool
  | empty | char _ => false
  | assert a => a.isBoundary
  | seq a b => a.backtracks || b.backtracks
  | alt a b => a.backtracks || b.backtracks
  | rep e _ _ _ => e.backtracks
  | group _ e => e.backtracks
  | atomic _ => true
  | look _ _ _ => true

/-- No match leaves a choice: there are no branches, and every number of repetitions is fixed. -/
def isDeterminate : Regex → Bool
  | empty | char _ | assert _ => true
  | seq a b => a.isDeterminate && b.isDeterminate
  | alt _ _ => false
  | rep e least most _ => most == some least && e.isDeterminate
  | group _ e => e.isDeterminate
  | atomic _ | look _ _ _ => false

/-- A loop without an upper bound has a body that may consume nothing. -/
def hasIdleLoop : Regex → Bool
  | empty | char _ | assert _ => false
  | seq a b => a.hasIdleLoop || b.hasIdleLoop
  | alt a b => a.hasIdleLoop || b.hasIdleLoop
  | rep e _ most _ => (most.isNone && e.leastWidth == 0) || e.hasIdleLoop
  | group _ e => e.hasIdleLoop
  | atomic e => e.hasIdleLoop
  | look _ _ e => e.hasIdleLoop

/-! ## Looking behind -/

/-- Looks behind for `e`, which has a fixed width or branches that each have one; `none` if it has
neither. -/
def lookBehind? (negated : Bool) (e : Regex) : Option Regex :=
  if e.width?.isSome then
    some (look .behind negated e)
  else
    let branches := e.bare.branches
    if 1 < branches.length && branches.all (·.width?.isSome) then
      let looks := branches.map (look .behind negated)
      some (if negated then sequence looks else (choice looks).enclosed)
    else
      none

/-- The pattern with every look behind split into looks of a fixed width; `none` if one cannot be
split so. -/
def splitLooks? : Regex → Option Regex
  | empty => some empty
  | char s => some (char s)
  | assert a => some (assert a)
  | seq a b => do return seq (← a.splitLooks?) (← b.splitLooks?)
  | alt a b => do return alt (← a.splitLooks?) (← b.splitLooks?)
  | rep e least most greedy => do return rep (← e.splitLooks?) least most greedy
  | group captured e => do return group captured (← e.splitLooks?)
  | atomic e => do return atomic (← e.splitLooks?)
  | look .ahead negated e => do return look .ahead negated (← e.splitLooks?)
  | look .behind negated e => e.splitLooks?.bind (lookBehind? negated)

end Regex

end SolidityScan
