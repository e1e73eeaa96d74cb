/-
# Addresses that constructors take

A constructor has to guard each address that it takes.  For every constructor the rule gathers the
required conditions and the branches of the body once, and then asks about its parameters one by
one; a constructor without a body has nothing to ask.

* `Rules.TakesAddress` : a parameter for an address;
* `Rules.TakesUnguarded` : one that the body of the constructor does not guard;
* `Detector.detect_constructorZeroAddress` : which parameters are reported.
-/
import Mathlib.Data.Option.Basic
import SolidityScan.Proofs.Rules.ZeroAddress

namespace SolidityScan

namespace Rules

open SyntaxNode

/-! ## Parameters -/

/-- The parameter is of an elementary type for addresses and has the given name, which is not
empty. -/
structure TakesAddress (parameter : SyntaxNode) (name : String) : Prop where
  address : ∃ type typeName, parameter.child? "typeName" = some type ∧
    type.kind = "ElementaryTypeName" ∧ type.string? "name" = some typeName ∧
    "address".toList <+: typeName.toList
  named : parameter.string? "name" = some name
  nonempty : name ≠ ""

/-- The parameter takes an address that the body of the function, if it has one, does not guard. -/
def TakesUnguarded (function parameter : SyntaxNode) : Prop :=
  ∃ name, TakesAddress parameter name ∧
    ∀ body, function.child? "body" = some body → ¬ Guarded body name

/-- The report of a parameter that is not guarded. -/
def parameterHit (parameter : SyntaxNode) : Hit where
  range := parameter.src
  message := (parameter.string? "name").map fun name =>
    s!"`{name}` is not checked against address(0)"

theorem isAddressParameter_iff {n : SyntaxNode} :
    isAddressParameter n = true ↔ ∃ type typeName, n.child? "typeName" = some type ∧
      type.kind = "ElementaryTypeName" ∧ type.string? "name" = some typeName ∧
      "address".toList <+: typeName.toList := by
  rw [isAddressParameter, Option.any_eq_true]
  simp only [Bool.and_eq_true, is_iff, Option.any_eq_true, isAddressName,
    List.isPrefixOf_iff_prefix, exists_and_left]

/-- **A parameter is reported if it takes an address under a name that is not checked**, and with
this name. -/
theorem uncheckedParameter?_eq_some_iff {conditions branches : List SyntaxNode}
    {parameter : SyntaxNode} {hit : Hit} :
    uncheckedParameter? conditions branches parameter = some hit ↔
      (∃ name, TakesAddress parameter name ∧
        isCheckedAgainstZero conditions branches name = false) ∧ hit = parameterHit parameter := by
  unfold uncheckedParameter?
  constructor
  · intro h
    obtain ⟨_, haddress, h⟩ := Option.bind_eq_some_iff.1 h
    obtain ⟨name, hname, h⟩ := Option.bind_eq_some_iff.1 h
    obtain ⟨_, hunchecked, h⟩ := Option.bind_eq_some_iff.1 h
    have htype := isAddressParameter_iff.1 ((Option.guard_eq_some' _).1 haddress)
    have hboth := (Option.guard_eq_some' _).1 hunchecked
    rw [Bool.and_eq_true, Bool.not_eq_true', Bool.not_eq_true', String.isEmpty_eq_false_iff]
      at hboth
    cases h
    refine ⟨⟨name, ⟨htype, hname, hboth.1⟩, hboth.2⟩, ?_⟩
    rw [parameterHit, hname]
    rfl
  · rintro ⟨⟨name, ⟨htype, hname, hnamed⟩, hunchecked⟩, rfl⟩
    refine Option.bind_eq_some_iff.2 ⟨(), (Option.guard_eq_some' _).2 ?_, ?_⟩
    · exact isAddressParameter_iff.2 htype
    · refine Option.bind_eq_some_iff.2 ⟨name, hname, Option.bind_eq_some_iff.2 ⟨(), ?_, ?_⟩⟩
      · rw [Option.guard_eq_some', Bool.and_eq_true, Bool.not_eq_true', Bool.not_eq_true',
          String.isEmpty_eq_false_iff]
        exact ⟨hnamed, hunchecked⟩
      · rw [parameterHit, hname]
        rfl

/-! ## Constructors -/

/-- The conditions that the body of a function requires. -/
def bodyConditions (function : SyntaxNode) : List SyntaxNode :=
  (function.child? "body").elim [] requiredConditions

/-- The branches in the body of a function. -/
def bodyBranches (function : SyntaxNode) : List SyntaxNode :=
  (function.child? "body").elim [] (·.nodesOf "IfStatement")

/-- Without a body nothing is checked; otherwise it is the body that guards. -/
theorem isCheckedAgainstZero_body_iff {function : SyntaxNode} {name : String} :
    isCheckedAgainstZero (bodyConditions function) (bodyBranches function) name = false ↔
      ∀ body, function.child? "body" = some body → ¬ Guarded body name := by
  cases hbody : function.child? "body" with
  | none => simp [bodyConditions, bodyBranches, hbody, isCheckedAgainstZero]
  | some body =>
    simp only [bodyConditions, bodyBranches, hbody, Option.elim_some, Option.some.injEq,
      forall_eq', ← Bool.not_eq_true, isCheckedAgainstZero_iff]

theorem uncheckedParameter?_body_eq_some_iff {function parameter : SyntaxNode} {hit : Hit} :
    uncheckedParameter? (bodyConditions function) (bodyBranches function) parameter = some hit ↔
      TakesUnguarded function parameter ∧ hit = parameterHit parameter := by
  rw [uncheckedParameter?_eq_some_iff, TakesUnguarded]
  simp only [isCheckedAgainstZero_body_iff]

instance (function parameter : SyntaxNode) : Decidable (TakesUnguarded function parameter) :=
  decidable_of_iff
    ((uncheckedParameter? (bodyConditions function) (bodyBranches function)
      parameter).isSome = true) <| by
    rw [Option.isSome_iff_exists]
    simp only [uncheckedParameter?_body_eq_some_iff, exists_and_left, exists_eq, and_true]

/-- The constructors of a tree, in recursive order. -/
def constructors (root : SyntaxNode) : List SyntaxNode :=
  (root.nodesOf "FunctionDefinition").filter fun function =>
    function.string? "kind" = some "constructor"

theorem constructorZeroAddress_eq {root : SyntaxNode} (h : root.Shallow) :
    constructorZeroAddress root = .ok ((constructors root).flatMap fun function =>
      (function.parameters.filter fun parameter => TakesUnguarded function parameter).map
        parameterHit) := by
  rw [constructors, ← Lists.flatMap_if_eq_filter]
  refine h.collect_find_eq _ fun function hfunction => ?_
  by_cases hkind : function.string? "kind" = some "constructor"
  · have hhits : function.parameters.filterMap
        (uncheckedParameter? (bodyConditions function) (bodyBranches function)) =
        (function.parameters.filter fun parameter => TakesUnguarded function parameter).map
          parameterHit := by
      refine Lists.filterMap_eq_map_filter (fun parameter hit => ?_) _
      rw [uncheckedParameter?_body_eq_some_iff, decide_eq_true_eq]
    rw [if_neg (by simp [hkind]), if_pos hkind, ← hhits]
    cases hbody : function.child? "body" with
    | none =>
      simp only [bodyConditions, bodyBranches, hbody, Option.elim_none]
      rfl
    | some body =>
      have hshallow := hfunction.child? hbody
      simp only [bodyConditions, bodyBranches, hbody, Option.elim_some,
        hshallow.requireConditions_eq, hshallow.collectKind_eq]
      rfl
  · rw [if_pos (by simpa using hkind), if_neg hkind]
    rfl

end Rules

namespace Detector

open SyntaxNode Rules

/-- **Address parameters of constructors are reported where they stand, unless the body guards
them.**  The report is made constructor by constructor and in the order of the parameters, each with
its own name, and nothing else is reported. -/
theorem detect_constructorZeroAddress {d : Detector} (hd : d ∈ Catalog.structuralDetectors)
    (hid : d.id = "constructor-zero-address") {f : SourceFile} {root : SyntaxNode}
    (htree : f.tree? = some root) (hroot : root.Shallow) :
    d.detect f = .hits ((constructors root).flatMap fun function =>
      (function.parameters.filter fun parameter => TakesUnguarded function parameter).map
        parameterHit) :=
  detect_of_id hd (List.get_mem _ ⟨4, by decide⟩) hid rfl htree (constructorZeroAddress_eq hroot)

/-- A parameter of an elementary type. -/
def parameterOf (type name : String) (offset : Nat) : SyntaxNode :=
  .mk "VariableDeclaration" ⟨offset, 4, some 0⟩ [("name", .scalar (.str name)),
    ("typeName", .child (some (.mk "ElementaryTypeName" ⟨offset, 2, some 0⟩
      [("name", .scalar (.str type))])))]

/-- The conversion of zero to an address. -/
def zeroConversion : SyntaxNode :=
  callOf
    (.mk "ElementaryTypeNameExpression" ⟨53, 7, some 0⟩ [("typeName", .scalar (.str "address"))])
    [.mk "Literal" ⟨61, 1, some 0⟩ [("value", .scalar (.str "0"))]] ⟨53, 10, some 0⟩

/-- The condition that `b` is not the zero address. -/
def ownerCondition : SyntaxNode :=
  .mk "BinaryOperation" ⟨48, 15, some 0⟩
    [("leftExpression", .child (some (identifier "b" ⟨48, 1, some 0⟩))),
      ("operator", .scalar (.str "!=")), ("rightExpression", .child (some zeroConversion))]

/-- The requirement of this condition. -/
def ownerRequirement : SyntaxNode :=
  callOf (identifier "require" ⟨40, 7, some 0⟩) [ownerCondition] ⟨40, 24, some 0⟩

/-- The body of a constructor, with this requirement in a block of its own. -/
def ownerBody : SyntaxNode :=
  .mk "Block" ⟨30, 40, some 0⟩ [("statements", .sequence [none, some (.mk "Block" ⟨38, 30, some 0⟩
    [("statements", .sequence [some ownerRequirement])])])]

/-- A constructor that takes the addresses `a` and `b`, an address without a name and a number. -/
def ownerConstructor : SyntaxNode :=
  .mk "FunctionDefinition" ⟨0, 70, some 0⟩ [("body", .child (some ownerBody)),
    ("kind", .scalar (.str "constructor")),
    ("parameters", .child (some (.mk "ParameterList" ⟨3, 20, some 0⟩ [("parameters", .sequence
      [some (parameterOf "address" "a" 5), none, some (parameterOf "address payable" "b" 10),
        some (parameterOf "address" "" 15), some (parameterOf "uint256" "c" 20)])])))]

theorem detect_constructorZeroAddress_owners :
    let d := Catalog.structuralDetectors.get ⟨4, by decide⟩
    let f : SourceFile := { path := "a.sol", text := "", tree := .present ownerConstructor }
    d ∈ Catalog.structuralDetectors ∧ d.id = "constructor-zero-address" ∧
      ownerConstructor.Shallow ∧ ownerConstructor ∈ constructors ownerConstructor ∧
      TakesUnguarded ownerConstructor (parameterOf "address" "a" 5) ∧
      ¬ TakesUnguarded ownerConstructor (parameterOf "address payable" "b" 10) ∧
      d.detect f = .hits
        [{ range := ⟨5, 4, some 0⟩, message := some "`a` is not checked against address(0)" }] := by
  intro d f
  have hd : d ∈ Catalog.structuralDetectors := List.get_mem _ _
  have hid : d.id = "constructor-zero-address" := rfl
  have hshallow : ownerConstructor.Shallow := shallow_of_size_le (by decide +kernel)
  have hcalls : ownerBody.nodesOf "FunctionCall" = [ownerRequirement, zeroConversion] := by cbv
  have hconditions : bodyConditions ownerConstructor = [ownerCondition] := by
    show ownerBody.requiredConditions = [ownerCondition]
    rw [requiredConditions, hcalls]
    rfl
  have hbranches : bodyBranches ownerConstructor = [] := by
    show ownerBody.nodesOf "IfStatement" = []
    cbv
  have hparameter : ∀ parameter, TakesUnguarded ownerConstructor parameter ↔
      uncheckedParameter? [ownerCondition] [] parameter = some (parameterHit parameter) := by
    intro parameter
    rw [← hconditions, ← hbranches, uncheckedParameter?_body_eq_some_iff]
    exact (and_iff_left rfl).symm
  have hfunctions : ownerConstructor.nodesOf "FunctionDefinition" = [ownerConstructor] := by cbv
  have hconstructors : constructors ownerConstructor = [ownerConstructor] := by
    rw [constructors, hfunctions]
    rfl
  have ha : TakesUnguarded ownerConstructor (parameterOf "address" "a" 5) := by
    rw [hparameter]
    decide +kernel
  have hb : ¬ TakesUnguarded ownerConstructor (parameterOf "address payable" "b" 10) := by
    rw [hparameter]
    decide +kernel
  have hunnamed : ¬ TakesUnguarded ownerConstructor (parameterOf "address" "" 15) := by
    rw [hparameter]
    decide +kernel
  have hnumber : ¬ TakesUnguarded ownerConstructor (parameterOf "uint256" "c" 20) := by
    rw [hparameter]
    decide +kernel
  have hparameters : ownerConstructor.parameters = [parameterOf "address" "a" 5,
      parameterOf "address payable" "b" 10, parameterOf "address" "" 15,
      parameterOf "uint256" "c" 20] := rfl
  refine ⟨hd, hid, hshallow, hconstructors ▸ List.mem_singleton_self _, ha, hb, ?_⟩
  rw [detect_constructorZeroAddress hd hid (f := f) rfl hshallow, hconstructors,
    List.flatMap_singleton, hparameters]
  simp only [List.filter_cons, ha, hb, hunnamed, hnumber, decide_true, decide_false, if_true]
  rfl

end Detector

end SolidityScan
