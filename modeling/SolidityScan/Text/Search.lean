/-
# Words inside texts

Whether a text starts with or contains a word, also up to letter case.
-/

namespace SolidityScan.Text

/-- The text starts with the word. -/
def startsWith (text word : String) : Bool :=
  word.toList.isPrefixOf text.toList

/-- The word stands somewhere in the characters. -/
def hasWord (word : List Char) : List Char → Bool
  | [] => word.isEmpty
  | c :: rest => word.isPrefixOf (c :: rest) || hasWord word rest

/-- The text contains the word. -/
def contains (text word : String) : Bool :=
  hasWord word.toList text.toList

/-- The lower case of a character as far as letters of the English alphabet are concerned.  Besides
the capitals these arise from the Kelvin sign and, with a combining dot, from the dotted capital
I; any other character has none of them in its lower case and is kept. -/
def lowerCase (c : Char) : List Char :=
  if c = '\u212a' then ['k']
  else if c = '\u0130' then ['i', '\u0307']
  else [c.toLower]

/-- The text contains the word, which is in lower case, once its letters are put in lower case. -/
def containsCaseless (text word : String) : Bool :=
  hasWord word.toList (text.toList.flatMap lowerCase)

end SolidityScan.Text
