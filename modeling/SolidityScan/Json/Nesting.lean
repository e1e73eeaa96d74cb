/-
# How deeply a JSON text nests

The largest number of brackets open at the same time, found in one pass that knows only brackets,
quotes and backslashes.
-/

namespace SolidityScan.JsonText

/-- Where the pass stands: outside strings, inside one, or right after a backslash in one. -/
inductive QuoteState where
  | outside
  | inside
  | escaped
deriving DecidableEq

/-- The brackets open now and the most that were open so far. -/
structure Nesting where
  depth : Nat := 0
  deepest : Nat := 0
  quote : QuoteState := .outside

namespace Nesting

/-- The state after one more character. -/
def step (n : Nesting) (c : Char) : Nesting :=
  match n.quote with
  | .escaped => { n with quote := .inside }
  | .inside =>
    if c = '\\' then { n with quote := .escaped }
    else if c = '"' then { n with quote := .outside }
    else n
  | .outside =>
    if c = '"' then { n with quote := .inside }
    else if c = '{' ∨ c = '[' then
      { n with depth := n.depth + 1, deepest := max n.deepest (n.depth + 1) }
    else if c = '}' ∨ c = ']' then { n with depth := n.depth - 1 }
    else n

end Nesting

/-- The largest number of brackets that the text has open at the same time. -/
def nesting (text : String) : Nat :=
  (text.toList.foldl Nesting.step {}).deepest

end SolidityScan.JsonText
