/-
# Reading YAML documents

Documents made of mappings and sequences, in block form or in brackets, and of plain and quoted
scalars.  Anchors, tags and block scalars are not part of the dialect.
-/
import SolidityScan.Yaml.Token

namespace SolidityScan

/-- A YAML node.  Whether a scalar is plain decides what it can stand for. -/
inductive Yaml where
  | scalar (plain : Bool) (text : String)
  | sequence (items : List Yaml)
  | mapping (fields : List (Yaml × Yaml))
deriving Repr

namespace Yaml

/-- The node that stands where nothing is written. -/
def nothing : Yaml :=
  scalar true ""

/-! ## Nodes -/

mutual

/-- Reads a node.  Where `block` holds it may be a collection in block form, and where `flat` holds
a sequence whose items are not indented. -/
def node? : Nat → Bool → Bool → List Token → Option (Yaml × List Token)
  | 0, _, _, _ => none
  | fuel + 1, block, flat, t :: rest =>
    match t with
    | .scalar plain text => some (scalar plain text, rest)
    | .flowSequenceStart => (flowItems? fuel true rest).map (·.map sequence id)
    | .flowMappingStart => (flowFields? fuel true rest).map (·.map mapping id)
    | .entry => if flat then (flatItems? fuel (t :: rest)).map (·.map sequence id) else none
    | .sequenceStart => if block then (items? fuel rest).map (·.map sequence id) else none
    | .mappingStart => if block then (fields? fuel rest).map (·.map mapping id) else none
    | _ => none
  | _, _, _, [] => none

/-- Reads a node unless one of the given tokens stands there, before which nothing is written. -/
def nodeBefore? : Nat → Bool → Bool → List Token → List Token → Option (Yaml × List Token)
  | 0, _, _, _, _ => none
  | fuel + 1, block, flat, stops, ts =>
    if ts.head?.any stops.contains then some (nothing, ts) else node? fuel block flat ts

/-- Reads the items of an indented sequence, over its end. -/
def items? : Nat → List Token → Option (List Yaml × List Token)
  | 0, _ => none
  | _ + 1, .blockEnd :: rest => some ([], rest)
  | fuel + 1, .entry :: rest => do
    let (item, rest) ← nodeBefore? fuel true false [.entry, .blockEnd] rest
    let (items, rest) ← items? fuel rest
    return (item :: items, rest)
  | _, _ => none

/-- Reads the items of a sequence that is not indented, as long as there is one. -/
def flatItems? : Nat → List Token → Option (List Yaml × List Token)
  | 0, _ => none
  | fuel + 1, .entry :: rest => do
    let (item, rest) ← nodeBefore? fuel true false [.entry, .key, .value, .blockEnd] rest
    let (items, rest) ← flatItems? fuel rest
    return (item :: items, rest)
  | _, ts => some ([], ts)

/-- Reads the fields of a mapping in block form, over its end. -/
def fields? : Nat → List Token → Option (List (Yaml × Yaml) × List Token)
  | 0, _ => none
  | _ + 1, .blockEnd :: rest => some ([], rest)
  | fuel + 1, .key :: rest => do
    let (key, rest) ← nodeBefore? fuel true true [.key, .value, .blockEnd] rest
    let (value, rest) ← match rest with
      | .value :: rest => nodeBefore? fuel true true [.key, .value, .blockEnd] rest
      | _ => some (nothing, rest)
    let (fields, rest) ← fields? fuel rest
    return ((key, value) :: fields, rest)
  | _, _ => none

/-- Reads the items of a sequence in brackets, over the closing bracket.  A key among them starts a
mapping with a single field. -/
def flowItems? : Nat → Bool → List Token → Option (List Yaml × List Token)
  | 0, _, _ => none
  | _ + 1, _, .flowSequenceEnd :: rest => some ([], rest)
  | fuel + 1, first, ts => do
    let ts ← if first then some ts else
      match ts with
      | .flowEntry :: rest => some rest
      | _ => none
    match ts with
    | .flowSequenceEnd :: rest => return ([], rest)
    | .key :: rest =>
      let (field, rest) ← flowPair? fuel rest
      let (items, rest) ← flowItems? fuel false rest
      return (mapping [field] :: items, rest)
    | ts =>
      let (item, rest) ← node? fuel false false ts
      let (items, rest) ← flowItems? fuel false rest
      return (item :: items, rest)

/-- Reads a field in a sequence in brackets after the sign of its key.  A key that is left out takes
the sign after it along. -/
def flowPair? : Nat → List Token → Option ((Yaml × Yaml) × List Token)
  | 0, _ => none
  | fuel + 1, ts => do
    let (key, rest) ←
      if ts.head?.any [Token.value, .flowEntry, .flowSequenceEnd].contains then
        some (nothing, ts.drop 1)
      else
        node? fuel false false ts
    let (value, rest) ← match rest with
      | .value :: rest => nodeBefore? fuel false false [.flowEntry, .flowSequenceEnd] rest
      | _ => some (nothing, rest)
    return ((key, value), rest)

/-- Reads the fields of a mapping in braces, over the closing brace. -/
def flowFields? : Nat → Bool → List Token → Option (List (Yaml × Yaml) × List Token)
  | 0, _, _ => none
  | _ + 1, _, .flowMappingEnd :: rest => some ([], rest)
  | fuel + 1, first, ts => do
    let ts ← if first then some ts else
      match ts with
      | .flowEntry :: rest => some rest
      | _ => none
    match ts with
    | .flowMappingEnd :: rest => return ([], rest)
    | .key :: rest =>
      let (key, rest) ← nodeBefore? fuel false false [.value, .flowEntry, .flowMappingEnd] rest
      let (value, rest) ← match rest with
        | .value :: rest => nodeBefore? fuel false false [.flowEntry, .flowMappingEnd] rest
        | _ => some (nothing, rest)
      let (fields, rest) ← flowFields? fuel false rest
      return ((key, value) :: fields, rest)
    | ts =>
      let (key, rest) ← node? fuel false false ts
      let (fields, rest) ← flowFields? fuel false rest
      return ((key, nothing) :: fields, rest)

end

/-! ## Documents -/

/-- Reads the root of a document after the mark of its start. -/
def root? (fuel : Nat) : List Token → Option (Yaml × List Token)
  | [] => some (nothing, [])
  | ts => nodeBefore? fuel true false [.documentStart, .documentEnd] ts

/-- Reads a document; its start has to be marked if its version is told. -/
def document? (fuel : Nat) : List Token → Option (Yaml × List Token)
  | .version 1 minor :: .documentStart :: rest =>
    if minor = 1 ∨ minor = 2 then root? fuel rest else none
  | .documentStart :: rest => root? fuel rest
  | ts => node? fuel true false ts

/-- Reads a text with at most one document; nothing is written if there is none. -/
def parse? (text : String) : Option Yaml := do
  match ← tokens? text with
  | [] => return nothing
  | ts =>
    let (root, rest) ← document? (4 * ts.length + 4) ts
    if rest.all (· == .documentEnd) then return root else none

end Yaml

end SolidityScan
