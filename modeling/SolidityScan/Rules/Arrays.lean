/-
# Rules about arrays

State arrays that are pushed to and never shrunk, functions that push without looking, and loops
over arrays that a caller chooses.
-/
import SolidityScan.Detector
import SolidityScan.Tree.Query

namespace SolidityScan.Rules

open SyntaxNode

/-! ## Arrays that only grow -/

/-- The name of the array that the node indexes. -/
def indexedName? (n : SyntaxNode) : Option String :=
  if n.is "IndexAccess" then (n.child? "baseExpression").bind identifierName? else none

/-- The name of the array whose member of the given name the node accesses. -/
def memberOwner? (n : SyntaxNode) (member : String) : Option String :=
  (n.memberAccess? member).bind identifierName?

/-- The array that the node pushes to. -/
def grownName? (n : SyntaxNode) : Option String :=
  if n.is "FunctionCall" then n.callee?.bind (memberOwner? · "push") else none

/-- The arrays that the node shrinks: by popping, by assigning to the length or to an element, or
by deleting the array or an element. -/
def shrunkNames (n : SyntaxNode) : List String :=
  if n.is "FunctionCall" then
    (n.callee?.bind (memberOwner? · "pop")).toList
  else if n.is "Assignment" then
    match n.child? "leftHandSide" with
    | none => []
    | some target => (memberOwner? target "length").toList ++ (indexedName? target).toList
  else if n.is "UnaryOperation" && n.string? "operator" == some "delete" then
    match n.child? "subExpression" with
    | none => []
    | some target => (target.identifierName?.or (indexedName? target)).toList
  else
    []

/-- The node declares a state variable of array type. -/
def isStateArray (n : SyntaxNode) : Bool :=
  n.is "VariableDeclaration" && n.flag? "stateVariable" == some true &&
    (n.child? "typeName").any (·.is "ArrayTypeName")

/-- Reports a declared state array that is grown and not shrunk. -/
def growthHit? (grown shrunk : List String) (declaration : SyntaxNode) : Option Hit := do
  guard (isStateArray declaration)
  let name ← declaration.string? "name"
  guard (grown.contains name && !shrunk.contains name)
  return { range := declaration.src, message := s!"`{name}` is pushed to but never shrunk" }

/-- State arrays of a contract that some code of it pushes to and no code of it shrinks. -/
def arrayGrowsWithoutShrink : TreeRule := fun root =>
  Visit.collect
    (fun contract => do
      let nodes ← Visit.nodes contract.walk
      let grown := nodes.filterMap grownName?
      let shrunk := nodes.flatMap shrunkNames
      return (contract.children "nodes").filterMap (growthHit? grown shrunk))
    (root.find "ContractDefinition")

/-! ## Pushing without a check -/

/-- The condition compares a length with zero. -/
def isLengthCheck (condition : SyntaxNode) : Bool :=
  (condition.binaryOperands? "!=").any fun (left, right) =>
    left.isMemberAccess "length" && right.isZeroLiteral

/-- The node calls `push` of some object. -/
def isPush (call : SyntaxNode) : Bool :=
  call.callee?.any (·.isMemberAccess "push")

/-- Functions that push to an array and neither branch on nor require a length that is not
zero. -/
def arrayPushWithoutCheck : TreeRule := fun root =>
  Visit.collect
    (fun function => do
      match function.child? "body" with
      | none => return []
      | some body =>
        if !(← Visit.any isPush (body.find "FunctionCall")) then
          return []
        if ← Visit.any (fun n => (n.child? "condition").any isLengthCheck)
            (body.find "IfStatement") then
          return []
        if (← body.requireConditions).any isLengthCheck then
          return []
        return [{ range := function.src }])
    (root.find "FunctionDefinition")

/-! ## Loops over arrays of the caller -/

/-- The condition bounds a length from above. -/
def isLengthBound (condition : SyntaxNode) : Bool :=
  ["<=", "<"].any fun operator =>
    (condition.binaryOperands? operator).any fun (left, _) => left.isMemberAccess "length"

/-- The function can be called from outside. -/
def isCallableFromOutside (function : SyntaxNode) : Bool :=
  function.string? "visibility" == some "external" || function.string? "visibility" == some "public"

/-- The function takes an array. -/
def takesArray (function : SyntaxNode) : Bool :=
  function.parameters.any fun p => (p.child? "typeName").any (·.is "ArrayTypeName")

/-- Functions for callers outside that take an array and loop, without a bound on a length. -/
def unboundedArrayParamLoop : TreeRule := fun root =>
  Visit.collect
    (fun function => do
      if !(isCallableFromOutside function && takesArray function) then
        return []
      match function.child? "body" with
      | none => return []
      | some body =>
        if !(← Visit.any isLoop body.walk) then
          return []
        if (← body.requireConditions).any isLengthBound then
          return []
        return [{ range := function.src }])
    (root.find "FunctionDefinition")

end SolidityScan.Rules
