/-
# Rules about the zero address

Addresses that have to be checked against zero: the parameters of a constructor, and the signer
that a signature recovers to.
-/
import SolidityScan.Detector
import SolidityScan.Tree.Query

namespace SolidityScan.Rules

open SyntaxNode

/-- One of the conditions or branches makes sure that the identifier is not zero. -/
def isCheckedAgainstZero (conditions branches : List SyntaxNode) (name : String) : Bool :=
  conditions.any (·.guardsNonZero name) || branches.any (·.branchesOnZero name)

/-! ## Constructors -/

/-- The parameter is of an elementary type for addresses. -/
def isAddressParameter (n : SyntaxNode) : Bool :=
  (n.child? "typeName").any fun type =>
    type.is "ElementaryTypeName" && (type.string? "name").any isAddressName

/-- Reports an address parameter with a name that is not checked. -/
def uncheckedParameter? (conditions branches : List SyntaxNode) (n : SyntaxNode) : Option Hit := do
  guard (isAddressParameter n)
  let name ← n.string? "name"
  guard (!name.isEmpty && !isCheckedAgainstZero conditions branches name)
  return { range := n.src, message := s!"`{name}` is not checked against address(0)" }

/-- Address parameters of constructors that the body does not check against zero. -/
def constructorZeroAddress : TreeRule := fun root =>
  Visit.collect
    (fun function => do
      if function.string? "kind" != some "constructor" then
        return []
      match function.child? "body" with
      | none => return function.parameters.filterMap (uncheckedParameter? [] [])
      | some body =>
        let conditions ← body.requireConditions
        let branches ← body.collectKind "IfStatement"
        return function.parameters.filterMap (uncheckedParameter? conditions branches))
    (root.find "FunctionDefinition")

/-! ## Recovered signers -/

/-- The name that a declaration gives to a recovered signer. -/
def recoveredName? (declaration : SyntaxNode) : Option String :=
  if (declaration.child? "initialValue").any (·.isCallTo "ecrecover") then
    (declaration.slots "declarations").head?.join.bind (·.string? "name")
  else
    none

/-- Declarations of recovered signers that the function does not check against zero. -/
def ecrecoverZeroCheck : TreeRule := fun root =>
  Visit.collect
    (fun function => do
      let declarations ← function.collectKind "VariableDeclarationStatement"
      let recoveries := declarations.filterMap fun d => (recoveredName? d).map (d, ·)
      if recoveries.isEmpty then
        return []
      let conditions ← function.requireConditions
      let branches ← function.collectKind "IfStatement"
      let unchecked := recoveries.filter fun (_, name) =>
        !isCheckedAgainstZero conditions branches name
      return unchecked.map fun (d, _) => { range := d.src })
    (root.find "FunctionDefinition")

end SolidityScan.Rules
