/-
# Rules about declarations

How functions, modifiers and state variables are declared: which checks, modifiers and keywords
they have.
-/
import SolidityScan.Detector
import SolidityScan.Text.Search
import SolidityScan.Tree.Query

namespace SolidityScan.Rules

open SyntaxNode Text

/-! ## State variables -/

/-- The parts that the domain type of a signature has to name. -/
def domainParts : List String := ["version", "salt"]

/-- Reports a declaration whose value is the hash of a domain type that lacks a part. -/
def domainHit? (declaration : SyntaxNode) : Option Hit := do
  let value ← declaration.child? "value"
  guard (value.isCallTo "keccak256")
  let argument ← value.firstArgument?
  guard (argument.is "Literal")
  let type ← argument.string? "value"
  guard (contains type "EIP712Domain")
  let lacking := domainParts.filter fun part => !contains type part
  guard (!lacking.isEmpty)
  let listed := String.intercalate " and " lacking
  return { range := declaration.src, message := s!"domain type lacks {listed}" }

/-- Hashes of domain types without a version or a salt. -/
def eip712DomainIncomplete : TreeRule := fun root =>
  Visit.collect (fun declaration => .ok (domainHit? declaration).toList)
    (root.find "VariableDeclaration")

/-- Reports a state variable whose keyword does not fit its initial value. -/
def keywordHit? (declaration : SyntaxNode) : Option Hit := do
  guard (declaration.flag? "stateVariable" == some true)
  let value ← declaration.child? "value"
  let constant := declaration.flag? "constant" == some true ||
    declaration.string? "mutability" == some "constant"
  let immutable := declaration.string? "mutability" == some "immutable"
  if constant && !value.is "Literal" then
    return {
      range := declaration.src
      message := "constant initialised with a computed expression" }
  else if immutable && value.is "Literal" then
    return { range := declaration.src, message := "immutable initialised with a literal" }
  else
    none

/-- Constants with a computed value and immutables with a literal one. -/
def immutableConstantMisuse : TreeRule := fun root =>
  Visit.collect (fun declaration => .ok (keywordHit? declaration).toList)
    (root.find "VariableDeclaration")

/-! ## Functions -/

/-- The condition says that `from` and `to` differ. -/
def comparesFromTo (condition : SyntaxNode) : Bool :=
  (condition.binaryOperands? "!=").any fun (left, right) =>
    (left.isIdentifier "from" && right.isIdentifier "to") ||
      (left.isIdentifier "to" && right.isIdentifier "from")

/-- Functions that take `from` and `to` and do not require them to differ. -/
def fromToEqualityCheck : TreeRule := fun root =>
  Visit.collect
    (fun function => do
      let names := function.parameters.filterMap (·.string? "name")
      if !(names.contains "from" && names.contains "to") then
        return []
      match function.child? "body" with
      | none => return []
      | some body =>
        if (← body.requireConditions).any comparesFromTo then return []
        else return [{ range := function.src }])
    (root.find "FunctionDefinition")

/-- What a fixed address of token data starts with. -/
def uriSchemes : List String := ["http", "ipfs://", "ar://"]

/-- The statement returns a fixed address of token data. -/
def returnsUriLiteral (statement : SyntaxNode) : Bool :=
  statement.is "Return" && (statement.child? "expression").any fun e =>
    e.is "Literal" && e.string? "kind" == some "string" &&
      (e.string? "value").any fun value => uriSchemes.any (startsWith value)

/-- Functions for the address of token data that return a fixed one. -/
def hardcodedTokenUri : TreeRule := fun root =>
  Visit.collect
    (fun function =>
      .ok (if function.string? "name" == some "tokenURI" &&
          function.bodyStatements.any returnsUriLiteral then
        [{ range := function.src }]
      else
        []))
    (root.find "FunctionDefinition")

/-- Words in the name of a function that sets a bound. -/
def boundWords : List String :=
  ["min", "max", "minimum", "maximum", "limit", "cap", "threshold"]

/-- The function changes no state. -/
def isReadOnly (function : SyntaxNode) : Bool :=
  function.string? "stateMutability" == some "view" ||
    function.string? "stateMutability" == some "pure"

/-- Reports a function that sets a bound without requiring anything. -/
def boundHit? (function : SyntaxNode) : Option Hit := do
  let name ← function.string? "name"
  guard (boundWords.any (containsCaseless name))
  guard ((function.child? "body").isSome && !isReadOnly function)
  guard (!function.bodyStatements.any fun statement => statement.requireCondition?.isSome)
  return {
    range := function.src
    message := s!"Function {name} sets min/max amounts without require checks." }

/-- Functions that set a minimum, a maximum or a threshold without a requirement. -/
def minMaxWithoutLimits : TreeRule := fun root =>
  Visit.collect (fun function => .ok (boundHit? function).toList)
    (root.find "FunctionDefinition")

/-! ## Modifiers -/

/-- The node is the sender of the message. -/
def isMessageSender (n : SyntaxNode) : Bool :=
  (n.memberAccess? "sender").any (·.isIdentifier "msg")

/-- The condition compares the sender of the message. -/
def comparesSender (condition : SyntaxNode) : Bool :=
  condition.is "BinaryOperation" &&
    ((condition.child? "leftExpression").any isMessageSender ||
      (condition.child? "rightExpression").any isMessageSender)

/-- The modifiers of contracts that have more than one modifier for the sender. -/
def multipleRoleModifiers : TreeRule := fun root =>
  Visit.collect
    (fun contract => do
      let modifiers ← Visit.collect
        (fun modifier => do
          if (← modifier.requireConditions).any comparesSender then return [modifier]
          else return [])
        (contract.find "ModifierDefinition")
      if 1 < modifiers.length then
        return modifiers.map fun modifier => { range := modifier.src }
      else
        return [])
    (root.find "ContractDefinition")

/-- Reports a function with `nonReentrant` after other modifiers. -/
def reentrancyHit? (function : SyntaxNode) : Option Hit := do
  let names := function.modifierNames
  let earlier := names.takeWhile (· != "nonReentrant")
  guard (names.contains "nonReentrant" && !earlier.isEmpty)
  let listed := String.intercalate "`, `" earlier
  return { range := function.src, message := s!"nonReentrant is preceded by `{listed}`" }

/-- Functions on which other modifiers stand before `nonReentrant`. -/
def nonReentrantNotFirst : TreeRule := fun root =>
  Visit.collect (fun function => .ok (reentrancyHit? function).toList)
    (root.find "FunctionDefinition")

end SolidityScan.Rules
