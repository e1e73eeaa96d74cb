/-
# Reading syntax trees from JSON

An object with a kind is a node.  Its range is its own, or that of the nearest node above that has
one; its other fields are children, sequences of children, or scalars, by their shape.
-/
import SolidityScan.Error
import SolidityScan.Json.Nesting
import SolidityScan.Json.Printer
import SolidityScan.Json.Reader
import SolidityScan.Tree.Basic

namespace SolidityScan

/-- The most levels that a node may lie below the root. -/
def maxTreeDepth : Nat := 1024

/-- The most brackets that a JSON text of a tree may have open at the same time. -/
def maxJsonNesting : Nat := 2 * maxTreeDepth + 16

/-- The key of the kind of a node. -/
def kindKey : String := "nodeType"

/-- The key of the range of a node. -/
def rangeKey : String := "src"

namespace Json

/-- The value is an object with a kind. -/
def isNode (v : Json) : Bool :=
  (v.field? kindKey).isSome

/-- The value is absent in place of a node. -/
def isGap : Json → Bool
  | null => true
  | _ => false

/-- The items are nodes with gaps among them, at least one node unless there is no item. -/
def isNodeSequence (items : List Json) : Bool :=
  items.all (fun v => v.isGap || v.isNode) && (items.isEmpty || items.any isNode)

end Json

namespace SyntaxNode

/-- Reads the range of a node from text. -/
def parseRange (text : String) : Except TreeFault SourceRange :=
  match SourceRange.parse? text with
  | some r => .ok r
  | none => .error (.malformedRange text)

/-- Reads the kind and the range of a node that lies `depth` levels below the root; without a range
of its own it takes the range above. -/
def header (limit depth : Nat) (above : SourceRange) (v : Json) :
    Except TreeFault (String × SourceRange) := do
  if limit < depth then
    throw (.tooDeep limit)
  let kind ← match (v.field? kindKey).bind Json.str? with
    | some kind => pure kind
    | none => throw .kindNotString
  let src ← match v.field? rangeKey with
    | some (.str text) => parseRange text
    | some other => throw (.rangeNotString kind other.compact)
    | none => pure above
  return (kind, src)

mutual

/-- Reads a node that lies `depth` levels below the root. -/
def ofJsonAt (limit depth : Nat) (above : SourceRange) : Json → Except TreeFault SyntaxNode
  | .obj fields => do
    let (kind, src) ← header limit depth above (.obj fields)
    return .mk kind src (← fieldsOfJson limit depth src fields)
  | _ => .error .rootNotNode

/-- Reads the fields of a node, in order. -/
def fieldsOfJson (limit depth : Nat) (src : SourceRange) :
    List (String × Json) → Except TreeFault (List (String × Field))
  | [] => .ok []
  | (name, v) :: rest =>
    if name = kindKey ∨ name = rangeKey then
      fieldsOfJson limit depth src rest
    else if v.isNode then do
      let node ← ofJsonAt limit (depth + 1) src v
      return (name, .child (some node)) :: (← fieldsOfJson limit depth src rest)
    else do
      let f ← fieldOfJson limit depth src v
      return (name, f) :: (← fieldsOfJson limit depth src rest)

/-- Reads a field that is not a node itself. -/
def fieldOfJson (limit depth : Nat) (src : SourceRange) : Json → Except TreeFault Field
  | .null => .ok (.child none)
  | .arr items =>
    if Json.isNodeSequence items then do
      return .sequence (← slotsOfJson limit depth src items)
    else
      .ok (.scalar (.arr items))
  | v => .ok (.scalar v)

/-- Reads the slots of a sequence, in order. -/
def slotsOfJson (limit depth : Nat) (src : SourceRange) :
    List Json → Except TreeFault (List (Option SyntaxNode))
  | [] => .ok []
  | v :: rest =>
    if v.isGap then do
      return none :: (← slotsOfJson limit depth src rest)
    else do
      let node ← ofJsonAt limit (depth + 1) src v
      return some node :: (← slotsOfJson limit depth src rest)

end

/-- Reads a tree of which no node lies more than `limit` levels below the root. -/
def ofJson (limit : Nat) (v : Json) : Except TreeFault SyntaxNode :=
  if v.isNode then ofJsonAt limit 0 {} v else .error .rootNotNode

end SyntaxNode

/-- Reads the JSON text of a tree.  The nesting is checked first, so that it is the depth of the
tree that decides. -/
def parseTreeJson (text : String) : Except TreeFault Json :=
  let nesting := JsonText.nesting text
  if maxJsonNesting < nesting then
    .error (.nestingTooDeep nesting maxJsonNesting)
  else
    match Json.parse? text with
    | some v => .ok v
    | none => .error .invalidJson

end SolidityScan
