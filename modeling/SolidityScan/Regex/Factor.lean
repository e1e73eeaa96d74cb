/-
# Common beginnings of branches

Branches that all begin with the same items share them: the items are matched first, and the choice
is made after them.  Adjacent literal characters are one item here, so that the beginning of a word
is not shared, and a captured group is shared by no two branches.
-/
import SolidityScan.Regex.Basic

namespace SolidityScan.Regex

/-! ## Items -/

/-- The items of a sequence, through the parentheses that only hold it together. -/
def pieces : Regex → List Regex
  | empty => []
  | seq a b => a.pieces ++ b.pieces
  | group false e => e.pieces
  | e => [e]

/-- A literal character. -/
def isLiteral : Regex → Bool
  | char (.single _) => true
  | _ => false

/-- The pattern holds a captured group. -/
def captures : Regex → Bool
  | empty | char _ | assert _ => false
  | seq a b => a.captures || b.captures
  | alt a b => a.captures || b.captures
  | rep e _ _ _ => e.captures
  | group captured e => captured || e.captures
  | atomic e => e.captures
  | look _ _ e => e.captures

/-- The number of items, where adjacent literal characters count as one. -/
def itemCount : List Regex → Nat
  | [] => 0
  | [_] => 1
  | a :: b :: rest => itemCount (b :: rest) + if a.isLiteral && b.isLiteral then 0 else 1

/-! ## Sharing -/

/-- The longest common beginning of two lists of items. -/
def commonStart : List Regex → List Regex → List Regex
  | a :: as, b :: bs => if a = b ∧ !a.captures then a :: commonStart as bs else []
  | _, _ => []

/-- A branch goes on with the word that the first `n` of its items end with. -/
def splitsWord (n : Nat) (items : List Regex) : Bool :=
  ((items.take n).getLast?.any isLiteral) && ((items.drop n).head?.any isLiteral)

/-- The items that all branches begin with, if each has more than one item. -/
def sharedStart (branches : List (List Regex)) : List Regex :=
  match branches with
  | [] => []
  | first :: rest =>
    if branches.all (1 < itemCount ·) then
      let common := rest.foldl commonStart first
      if branches.any (splitsWord common.length) then
        (common.reverse.dropWhile isLiteral).reverse
      else
        common
    else
      []

/-- The branches in order of preference, behind the items that they all begin with. -/
def factoredChoice (branches : List Regex) : Regex :=
  match branches with
  | [e] => e
  | branches =>
    let items := branches.map pieces
    match sharedStart items with
    | [] => choice branches
    | shared =>
      let rests := items.map fun branch => sequence (branch.drop shared.length)
      sequence (shared ++ [(choice rests).enclosed])

/-- The branches of a pattern in which every choice has been factored. -/
def factoredBranches : Regex → List Regex
  | alt a b => (factoredChoice a.factoredBranches).bare.branches ++ b.factoredBranches
  | seq a b =>
    [sequence ((factoredChoice a.factoredBranches).pieces ++
      (factoredChoice b.factoredBranches).pieces)]
  | rep e least most greedy => [rep (factoredChoice e.factoredBranches) least most greedy]
  | group true e => [group true (factoredChoice e.factoredBranches)]
  | group false e => (factoredChoice e.factoredBranches).bare.branches
  | e => [e]

/-- The pattern in which branches share their common beginnings. -/
def factored (e : Regex) : Regex :=
  factoredChoice e.factoredBranches

end SolidityScan.Regex
