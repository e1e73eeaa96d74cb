/-
# Rules about calls

Calls out of loops, calls that move Ether out of a contract, conversions to signed integers, early
returns in assembly, and failed calls whose reason is dropped.
-/
import SolidityScan.Detector
import SolidityScan.Text.Numeral
import SolidityScan.Tree.Query

namespace SolidityScan.Rules

open SyntaxNode Text

/-! ## External calls in loops -/

/-- Members whose calls stay inside the contract. -/
def localMembers : List String := ["push", "pop", "concat"]

/-- Objects whose members are called inside the contract. -/
def localBases : List String := ["abi", "bytes", "string", "super"]

/-- The call calls a member of an object and may leave the contract. -/
def isExternalCall (call : SyntaxNode) : Bool :=
  (call.string? "kind").all (· == "functionCall") &&
    call.callee?.any fun target =>
      target.is "MemberAccess" &&
        (target.string? "memberName").any (fun member => !localMembers.contains member) &&
        !((target.child? "expression").bind identifierName?).any localBases.contains

/-- The first occurrence of each element, in order. -/
def distinct {α : Type} [BEq α] : List α → List α
  | [] => []
  | a :: rest => a :: (distinct rest).filter (· != a)

/-- Calls that may leave the contract and stand in a loop, each once, in order of offsets. -/
def externalCallInLoop : TreeRule := fun root => do
  let calls ← Visit.collect
    (fun n => do
      if n.isLoop then
        return (← n.collectKind "FunctionCall").filter isExternalCall
      else
        return [])
    root.walk
  let ranges := (distinct (calls.map src)).mergeSort fun a b => decide (a.offset ≤ b.offset)
  return ranges.map fun range => { range }

/-! ## Ether that cannot leave -/

/-- The call sends Ether: a transfer from an object, or a low-level call with arguments. -/
def movesEther (call : SyntaxNode) : Bool :=
  match call.calleeName? with
  | some "transfer" | some "send" | some "sendValue" =>
    (call.child? "expression").any fun e => !e.is "Identifier"
  | some "call" => !call.callArguments.isEmpty
  | _ => false

/-- Contracts, interfaces apart, with a payable function and no function that sends Ether. -/
def payableWithoutWithdraw : TreeRule := fun root =>
  Visit.collect
    (fun contract => do
      if contract.string? "contractKind" == some "interface" then
        return []
      let functions ← Visit.collect
        (fun function => do
          let withdraws ← Visit.any movesEther (function.find "FunctionCall")
          return [(function.string? "stateMutability" == some "payable", withdraws)])
        (contract.find "FunctionDefinition")
      if functions.any (·.1) && !functions.any (·.2) then
        return [{ range := contract.src }]
      else
        return [])
    (root.find "ContractDefinition")

/-! ## Conversions to signed integers -/

/-- The type is a signed integer: `int`, or `int` with a width of whole bytes up to 256 bits. -/
def isSignedType (name : String) : Bool :=
  match name.toList with
  | 'i' :: 'n' :: 't' :: [] => true
  | 'i' :: 'n' :: 't' :: width =>
    (unsigned? (Nat.pow 2 16) width).any fun n => n % 8 == 0 && decide (8 ≤ n) && decide (n ≤ 256)
  | _ => false

/-- The call converts something other than a literal to a signed integer. -/
def isSignedCast (call : SyntaxNode) : Bool :=
  (call.callee?.bind elementaryTypeName?).any isSignedType &&
    call.firstArgument?.any fun argument => !argument.is "Literal"

/-- Conversions to signed integers in the bodies of functions. -/
def unsafeSignedCast : TreeRule := fun root =>
  Visit.collect
    (fun function => do
      match function.child? "body" with
      | none => return []
      | some body =>
        let calls ← body.collectKind "FunctionCall"
        return (calls.filter isSignedCast).map fun call => { range := call.src })
    (root.find "FunctionDefinition")

/-! ## Returns in assembly -/

/-- The assembly block calls `return`. -/
def callsReturn (assembly : SyntaxNode) : Except TreeFault Bool :=
  match assembly.child? "AST" with
  | none => .ok false
  | some block =>
    Visit.any
      (fun call => (call.child? "functionName").bind (·.string? "name") == some "return")
      (block.find "YulFunctionCall")

/-- Assembly blocks of functions that call `return`. -/
def yulReturn : TreeRule := fun root =>
  Visit.collect
    (fun function =>
      Visit.collect
        (fun assembly => do
          if ← callsReturn assembly then return [{ range := assembly.src }] else return [])
        (function.find "InlineAssembly"))
    (root.find "FunctionDefinition")

/-! ## Failed calls -/

/-- The clause catches the reason of a failed call. -/
def catchesReason (clause : SyntaxNode) : Bool :=
  clause.string? "errorName" == some "Error" && !clause.parameters.isEmpty

/-- Attempts of which no clause catches the reason of failure. -/
def tryCatchWithoutError : TreeRule := fun root =>
  Visit.collect
    (fun attempt =>
      .ok (if (attempt.children "clauses").any catchesReason then []
        else [{ range := attempt.src }]))
    (root.find "TryStatement")

end SolidityScan.Rules
