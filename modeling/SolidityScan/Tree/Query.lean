/-
# Questions about nodes

What rules ask of the nodes of a tree: what a call calls, whether an expression is zero, which
conditions a piece of code requires.  A node that lacks a field answers `none` or `false`.
-/
import SolidityScan.Tree.Walk

namespace SolidityScan.SyntaxNode

/-! ## Identifiers and calls -/

/-- The name of an identifier. -/
def identifierName? (n : SyntaxNode) : Option String :=
  if n.is "Identifier" then n.string? "name" else none

/-- The node is the identifier with the given name. -/
def isIdentifier (n : SyntaxNode) (name : String) : Bool :=
  n.identifierName? == some name

/-- The expression that a call calls, through call options. -/
def callee? (n : SyntaxNode) : Option SyntaxNode :=
  if n.is "FunctionCall" then
    (n.child? "expression").bind fun e =>
      if e.is "FunctionCallOptions" then e.child? "expression" else some e
  else
    none

/-- The name of the function or member that a call calls. -/
def calleeName? (n : SyntaxNode) : Option String :=
  n.callee?.bind fun e =>
    if e.is "Identifier" then e.string? "name"
    else if e.is "MemberAccess" then e.string? "memberName"
    else none

/-- The node calls the function with the given name. -/
def isCallTo (n : SyntaxNode) (name : String) : Bool :=
  n.callee?.any (·.isIdentifier name)

/-- The node is a call of `require`. -/
def isRequireCall (n : SyntaxNode) : Bool :=
  n.isCallTo "require"

/-- The arguments of a call. -/
def callArguments (n : SyntaxNode) : List SyntaxNode :=
  n.children "arguments"

/-- The first argument of a call. -/
def firstArgument? (n : SyntaxNode) : Option SyntaxNode :=
  (n.slots "arguments").head?.join

/-- The object whose member of the given name the node accesses. -/
def memberAccess? (n : SyntaxNode) (member : String) : Option SyntaxNode :=
  if n.is "MemberAccess" && n.string? "memberName" == some member then
    n.child? "expression"
  else
    none

/-- The node is an access to the member of the given name. -/
def isMemberAccess (n : SyntaxNode) (member : String) : Bool :=
  (n.memberAccess? member).isSome

/-- The operands of a binary operation with the given operator. -/
def binaryOperands? (n : SyntaxNode) (operator : String) : Option (SyntaxNode × SyntaxNode) :=
  if n.is "BinaryOperation" && n.string? "operator" == some operator then do
    return (← n.child? "leftExpression", ← n.child? "rightExpression")
  else
    none

/-! ## Zero -/

/-- The digits of a number literal after the mark of a hexadecimal one. -/
def literalDigits : List Char → List Char
  | '0' :: 'x' :: rest => rest
  | '0' :: 'X' :: rest => rest
  | cs => cs

/-- The node is a literal whose digits are all zero. -/
def isZeroLiteral (n : SyntaxNode) : Bool :=
  n.is "Literal" && (n.string? "value").any fun value =>
    let digits := literalDigits value.toList
    !digits.isEmpty && digits.all fun c => c == '0' || c == '_'

/-- The name of the elementary type that a type expression names. -/
def elementaryTypeName? (n : SyntaxNode) : Option String :=
  if n.is "ElementaryTypeNameExpression" then
    match n.child? "typeName" with
    | some type => type.string? "name"
    | none => n.string? "typeName"
  else
    none

/-- The name of a type starts with `address`. -/
def isAddressName (name : String) : Bool :=
  "address".toList.isPrefixOf name.toList

/-- The node is a zero literal, or one converted to an address. -/
def isZeroAddress (n : SyntaxNode) : Bool :=
  n.isZeroLiteral ||
    ((n.callee?.bind elementaryTypeName?).any isAddressName && n.callArguments.length == 1 &&
      n.firstArgument?.any isZeroLiteral)

/-- Of two operands, one is the identifier with the given name and the other is zero. -/
def pairsWithZero (operands : SyntaxNode × SyntaxNode) (name : String) : Bool :=
  (operands.1.isIdentifier name && operands.2.isZeroAddress) ||
    (operands.2.isIdentifier name && operands.1.isZeroAddress)

/-- The condition says that the identifier is not zero. -/
def guardsNonZero (n : SyntaxNode) (name : String) : Bool :=
  (n.binaryOperands? "!=").any (pairsWithZero · name)

/-- The branch is taken when the identifier is zero. -/
def branchesOnZero (n : SyntaxNode) (name : String) : Bool :=
  ((n.child? "condition").bind (·.binaryOperands? "==")).any (pairsWithZero · name)

/-! ## Functions -/

/-- The statements of the body of a function. -/
def bodyStatements (n : SyntaxNode) : List SyntaxNode :=
  match n.child? "body" with
  | some body => body.children "statements"
  | none => []

/-- The parameters of a function. -/
def parameters (n : SyntaxNode) : List SyntaxNode :=
  match n.child? "parameters" with
  | some list => list.children "parameters"
  | none => []

/-- The names of the modifiers of a function, in order. -/
def modifierNames (n : SyntaxNode) : List String :=
  (n.children "modifiers").filterMap fun invocation =>
    (invocation.child? "modifierName").bind (·.string? "name")

/-- The node is a loop. -/
def isLoop (n : SyntaxNode) : Bool :=
  n.is "ForStatement" || n.is "WhileStatement" || n.is "DoWhileStatement"

/-! ## Requirements -/

/-- The condition that a statement requires. -/
def requireCondition? (n : SyntaxNode) : Option SyntaxNode :=
  if n.is "ExpressionStatement" then
    (n.child? "expression").bind fun call =>
      if call.isRequireCall then call.firstArgument? else none
  else
    none

/-- The conditions that calls of `require` anywhere under a node require, in order. -/
def requireConditions (scope : SyntaxNode) : Except TreeFault (List SyntaxNode) :=
  Visit.collect
    (fun call => .ok (if call.isRequireCall then call.firstArgument?.toList else []))
    (scope.find "FunctionCall")

end SolidityScan.SyntaxNode
