/-
# Arrays that only grow

For every contract the rule first gathers the names of the arrays that are pushed to and of those
that are shrunk, anywhere below the contract, and then goes through the declarations of the
contract.  All that is left of the first pass is which names were gathered, so a declaration is
reported or not by what the contract contains, wherever it stands and in whatever order.

* `Rules.Shrinks` : the ways to shrink an array;
* `Rules.OnlyGrows` : a declared array that code pushes to and no code shrinks;
* `Detector.detect_arrayGrowsWithoutShrink` : what is reported.
-/
import Mathlib.Data.Option.Basic
import SolidityScan.Proofs.Rules.DepthBound
import SolidityScan.Proofs.Tree.Nodes

namespace SolidityScan

namespace Rules

open SyntaxNode

/-! ## Growing and shrinking -/

/-- The node is the given member of the array, as in `array.push`. -/
def IsMemberOf (n : SyntaxNode) (array member : String) : Prop :=
  ∃ owner, n.Accesses owner member ∧ owner.IsNamed array

/-- The node is an element of the array, as in `array[i]`. -/
def IsElementOf (n : SyntaxNode) (array : String) : Prop :=
  n.kind = "IndexAccess" ∧ ∃ base, n.child? "baseExpression" = some base ∧ base.IsNamed array

/-- The node pushes to the array. -/
def Pushes (n : SyntaxNode) (array : String) : Prop :=
  ∃ target, n.Calls target ∧ IsMemberOf target array "push"

/-- The node shrinks the array, or overwrites an element of it. -/
inductive Shrinks (n : SyntaxNode) (array : String) : Prop where
  | pop {target : SyntaxNode} : n.Calls target → IsMemberOf target array "pop" → Shrinks n array
  | setLength {target : SyntaxNode} : n.kind = "Assignment" →
      n.child? "leftHandSide" = some target → IsMemberOf target array "length" → Shrinks n array
  | setElement {target : SyntaxNode} : n.kind = "Assignment" →
      n.child? "leftHandSide" = some target → IsElementOf target array → Shrinks n array
  | delete {target : SyntaxNode} : n.kind = "UnaryOperation" →
      n.string? "operator" = some "delete" → n.child? "subExpression" = some target →
      target.IsNamed array → Shrinks n array
  | deleteElement {target : SyntaxNode} : n.kind = "UnaryOperation" →
      n.string? "operator" = some "delete" → n.child? "subExpression" = some target →
      IsElementOf target array → Shrinks n array

theorem memberOwner?_eq_some_iff {n : SyntaxNode} {array member : String} :
    memberOwner? n member = some array ↔ IsMemberOf n array member := by
  rw [memberOwner?, Option.bind_eq_some_iff]
  simp only [memberAccess?_eq_some_iff, identifierName?_eq_some_iff]
  rfl

theorem indexedName?_eq_some_iff {n : SyntaxNode} {array : String} :
    indexedName? n = some array ↔ IsElementOf n array := by
  unfold indexedName?
  constructor
  · intro h
    split_ifs at h with hkind
    obtain ⟨base, hbase, hname⟩ := Option.bind_eq_some_iff.1 h
    exact ⟨is_iff.1 hkind, base, hbase, identifierName?_eq_some_iff.1 hname⟩
  · rintro ⟨hkind, base, hbase, hname⟩
    rw [if_pos (is_iff.2 hkind), Option.bind_eq_some_iff]
    exact ⟨base, hbase, identifierName?_eq_some_iff.2 hname⟩

/-- What a node calls, and which array that is a member of. -/
theorem bind_memberOwner?_eq_some_iff {n : SyntaxNode} {array member : String} :
    n.callee?.bind (memberOwner? · member) = some array ↔
      ∃ target, n.Calls target ∧ IsMemberOf target array member := by
  rw [Option.bind_eq_some_iff]
  simp only [callee?_eq_some_iff, memberOwner?_eq_some_iff]

theorem grownName?_eq_some_iff {n : SyntaxNode} {array : String} :
    grownName? n = some array ↔ Pushes n array := by
  unfold grownName?
  constructor
  · intro h
    split_ifs at h
    exact bind_memberOwner?_eq_some_iff.1 h
  · rintro ⟨target, htarget, hmember⟩
    rw [if_pos (is_iff.2 htarget.kind)]
    exact bind_memberOwner?_eq_some_iff.2 ⟨target, htarget, hmember⟩

/-- The name of an identifier, or else of the array that is indexed. -/
theorem or_indexedName?_eq_some_iff {n : SyntaxNode} {array : String} :
    n.identifierName?.or (indexedName? n) = some array ↔ n.IsNamed array ∨ IsElementOf n array := by
  rw [Option.or_eq_some_iff, identifierName?_eq_some_iff, indexedName?_eq_some_iff]
  constructor
  · exact Or.imp_right And.right
  · rintro (hname | helement)
    · exact Or.inl hname
    · -- an element is of another kind than a name
      refine Or.inr ⟨if_neg fun hkind => ?_, helement⟩
      rw [is_iff, helement.1] at hkind
      exact absurd hkind (by decide)

/-- **The names that a node shrinks are those of the five ways to shrink.** -/
theorem mem_shrunkNames_iff {n : SyntaxNode} {array : String} :
    array ∈ shrunkNames n ↔ Shrinks n array := by
  unfold shrunkNames
  constructor
  · intro h
    split_ifs at h with hcall hassign hdelete
    · obtain ⟨target, htarget, hmember⟩ :=
        bind_memberOwner?_eq_some_iff.1 (Option.mem_toList.1 h)
      exact .pop htarget hmember
    · split at h
      · cases h
      · next target htarget =>
        rcases List.mem_append.1 h with h | h
        · exact .setLength (is_iff.1 hassign) htarget
            (memberOwner?_eq_some_iff.1 (Option.mem_toList.1 h))
        · exact .setElement (is_iff.1 hassign) htarget
            (indexedName?_eq_some_iff.1 (Option.mem_toList.1 h))
    · rw [Bool.and_eq_true, is_iff, beq_iff_eq] at hdelete
      obtain ⟨hkind, hoperator⟩ := hdelete
      split at h
      · cases h
      · next target htarget =>
        rcases or_indexedName?_eq_some_iff.1 (Option.mem_toList.1 h) with hname | helement
        · exact .delete hkind hoperator htarget hname
        · exact .deleteElement hkind hoperator htarget helement
    · cases h
  · intro h
    -- the kind of the node leads to the branch of its constructor
    cases h with
    | pop htarget hmember =>
      rw [if_pos (is_iff.2 htarget.kind)]
      exact Option.mem_toList.2 (bind_memberOwner?_eq_some_iff.2 ⟨_, htarget, hmember⟩)
    | setLength hkind htarget hmember =>
      simp only [is, hkind, htarget]
      exact List.mem_append_left _ (Option.mem_toList.2 (memberOwner?_eq_some_iff.2 hmember))
    | setElement hkind htarget helement =>
      simp only [is, hkind, htarget]
      exact List.mem_append_right _ (Option.mem_toList.2 (indexedName?_eq_some_iff.2 helement))
    | delete hkind hoperator htarget hname =>
      simp only [is, hkind, hoperator, htarget]
      exact Option.mem_toList.2 (or_indexedName?_eq_some_iff.2 (Or.inl hname))
    | deleteElement hkind hoperator htarget helement =>
      simp only [is, hkind, hoperator, htarget]
      exact Option.mem_toList.2 (or_indexedName?_eq_some_iff.2 (Or.inr helement))

/-! ## Declarations -/

/-- The entry of a contract declares a state array that some code of the contract pushes to, and no
code of it shrinks. -/
structure OnlyGrows (contract entry : SyntaxNode) : Prop where
  kind : entry.kind = "VariableDeclaration"
  state : entry.flag? "stateVariable" = some true
  array : ∃ type, entry.child? "typeName" = some type ∧ type.kind = "ArrayTypeName"
  grows : ∃ name, entry.string? "name" = some name ∧ (∃ n, contract.Contains n ∧ Pushes n name) ∧
    ¬ ∃ n, contract.Contains n ∧ Shrinks n name

/-- The report of an array that only grows. -/
def growthHit (declaration : SyntaxNode) : Hit where
  range := declaration.src
  message := (declaration.string? "name").map fun name => s!"`{name}` is pushed to but never shrunk"

theorem isStateArray_iff {n : SyntaxNode} :
    isStateArray n = true ↔ n.kind = "VariableDeclaration" ∧ n.flag? "stateVariable" = some true ∧
      ∃ type, n.child? "typeName" = some type ∧ type.kind = "ArrayTypeName" := by
  rw [isStateArray, Bool.and_eq_true, Bool.and_eq_true, is_iff, beq_iff_eq, Option.any_eq_true,
    and_assoc]
  simp only [is_iff]

/-- The names of the arrays that the contract pushes to. -/
def grownIn (contract : SyntaxNode) : List String :=
  contract.nodes.filterMap grownName?

/-- The names of the arrays that the contract shrinks. -/
def shrunkIn (contract : SyntaxNode) : List String :=
  contract.nodes.flatMap shrunkNames

theorem mem_grownIn_iff {contract : SyntaxNode} {name : String} :
    name ∈ grownIn contract ↔ ∃ n, contract.Contains n ∧ Pushes n name := by
  rw [grownIn, List.mem_filterMap]
  simp only [mem_nodes_iff, grownName?_eq_some_iff]

theorem mem_shrunkIn_iff {contract : SyntaxNode} {name : String} :
    name ∈ shrunkIn contract ↔ ∃ n, contract.Contains n ∧ Shrinks n name := by
  rw [shrunkIn, List.mem_flatMap]
  simp only [mem_nodes_iff, mem_shrunkNames_iff]

/-- **An entry is reported if it only grows**, and with the range and name that it has. -/
theorem growthHit?_eq_some_iff {contract entry : SyntaxNode} {hit : Hit} :
    growthHit? (grownIn contract) (shrunkIn contract) entry = some hit ↔
      OnlyGrows contract entry ∧ hit = growthHit entry := by
  have hgrows : ∀ name, ((grownIn contract).contains name && !(shrunkIn contract).contains name) =
      true ↔ (∃ n, contract.Contains n ∧ Pushes n name) ∧
        ¬ ∃ n, contract.Contains n ∧ Shrinks n name := by
    intro name
    rw [Bool.and_eq_true, Bool.not_eq_true', ← Bool.not_eq_true, List.contains_iff_mem,
      List.contains_iff_mem, mem_grownIn_iff, mem_shrunkIn_iff]
  unfold growthHit?
  constructor
  · intro h
    obtain ⟨_, harray, h⟩ := Option.bind_eq_some_iff.1 h
    obtain ⟨name, hname, h⟩ := Option.bind_eq_some_iff.1 h
    obtain ⟨_, honly, h⟩ := Option.bind_eq_some_iff.1 h
    obtain ⟨hkind, hstate, htype⟩ := isStateArray_iff.1 ((Option.guard_eq_some' _).1 harray)
    have hname' := (hgrows name).1 ((Option.guard_eq_some' _).1 honly)
    cases h
    refine ⟨⟨hkind, hstate, htype, name, hname, hname'⟩, ?_⟩
    rw [growthHit, hname]
    rfl
  · rintro ⟨⟨hkind, hstate, htype, name, hname, honly⟩, rfl⟩
    refine Option.bind_eq_some_iff.2 ⟨(), (Option.guard_eq_some' _).2 ?_, ?_⟩
    · exact isStateArray_iff.2 ⟨hkind, hstate, htype⟩
    · refine Option.bind_eq_some_iff.2 ⟨name, hname, Option.bind_eq_some_iff.2 ⟨(), ?_, ?_⟩⟩
      · exact (Option.guard_eq_some' _).2 ((hgrows name).2 honly)
      · rw [growthHit, hname]
        rfl

instance (contract entry : SyntaxNode) : Decidable (OnlyGrows contract entry) :=
  decidable_of_iff ((growthHit? (grownIn contract) (shrunkIn contract) entry).isSome = true) <| by
    rw [Option.isSome_iff_exists]
    simp only [growthHit?_eq_some_iff, exists_and_left, exists_eq, and_true]

theorem arrayGrowsWithoutShrink_eq {root : SyntaxNode} (h : root.Shallow) :
    arrayGrowsWithoutShrink root = .ok ((root.nodesOf "ContractDefinition").flatMap fun contract =>
      (contract.children "nodes").filterMap
        (growthHit? (grownIn contract) (shrunkIn contract))) := by
  refine h.collect_find_eq _ fun contract hcontract => ?_
  rw [hcontract.walkNodes_eq]
  rfl

end Rules

namespace Detector

open SyntaxNode Rules

/-- **State arrays that only grow are reported where they are declared**, contract by contract and
in the order of its entries, and nothing else is reported. -/
theorem detect_arrayGrowsWithoutShrink {d : Detector} (hd : d ∈ Catalog.structuralDetectors)
    (hid : d.id = "array-grows-without-shrink") {f : SourceFile} {root : SyntaxNode}
    (htree : f.tree? = some root) (hroot : root.Shallow) :
    d.detect f = .hits ((root.nodesOf "ContractDefinition").flatMap fun contract =>
      ((contract.children "nodes").filter fun entry =>
        OnlyGrows contract entry).map growthHit) := by
  refine detect_of_id hd (List.get_mem _ ⟨2, by decide⟩) hid rfl htree ?_
  rw [arrayGrowsWithoutShrink_eq hroot]
  congr 1
  refine List.flatMap_congr fun contract _ => ?_
  refine Lists.filterMap_eq_map_filter (fun entry hit => ?_) _
  rw [growthHit?_eq_some_iff, decide_eq_true_eq]

/-- The declaration of a state array. -/
def arrayDeclaration (name : String) (offset : Nat) : SyntaxNode :=
  .mk "VariableDeclaration" ⟨offset, 9, some 0⟩
    [("name", .scalar (.str name)), ("stateVariable", .scalar (.bool true)),
      ("typeName", .child (some (.leaf "ArrayTypeName" ⟨offset, 6, some 0⟩)))]

/-- Code that pops from `b` before it pushes to `a` and to `b`. -/
def churnBlock : SyntaxNode :=
  .mk "Block" ⟨40, 40, some 0⟩ [("statements", .sequence [some (memberCall "b" "pop" 45),
    some (memberCall "a" "push" 55), some (memberCall "b" "push" 65)])]

/-- A contract that declares the two arrays before this code. -/
def churnContract : SyntaxNode :=
  .mk "ContractDefinition" ⟨0, 90, some 0⟩ [("nodes", .sequence
    [some (arrayDeclaration "a" 10), some (arrayDeclaration "b" 20), some churnBlock])]

theorem nodes_churnContract :
    churnContract.nodes = churnContract ::
      [arrayDeclaration "a" 10, .leaf "ArrayTypeName" ⟨10, 6, some 0⟩] ++
      [arrayDeclaration "b" 20, .leaf "ArrayTypeName" ⟨20, 6, some 0⟩] ++
      churnBlock :: ((memberCall "b" "pop" 45).nodes ++ (memberCall "a" "push" 55).nodes ++
        (memberCall "b" "push" 65).nodes) := by
  cbv

theorem detect_arrayGrowsWithoutShrink_churn :
    let d := Catalog.structuralDetectors.get ⟨2, by decide⟩
    let f : SourceFile := { path := "a.sol", text := "", tree := .present churnContract }
    d ∈ Catalog.structuralDetectors ∧ d.id = "array-grows-without-shrink" ∧ churnContract.Shallow ∧
      OnlyGrows churnContract (arrayDeclaration "a" 10) ∧
      ¬ OnlyGrows churnContract (arrayDeclaration "b" 20) ∧
      d.detect f = .hits
        [{ range := ⟨10, 9, some 0⟩, message := some "`a` is pushed to but never shrunk" }] := by
  intro d f
  have hd : d ∈ Catalog.structuralDetectors := List.get_mem _ _
  have hid : d.id = "array-grows-without-shrink" := rfl
  have hshallow : churnContract.Shallow := shallow_of_size_le (by decide +kernel)
  have hgrown : grownIn churnContract = ["a", "b"] := by
    simp only [grownIn, nodes_churnContract, nodes_memberCall]
    rfl
  have hshrunk : shrunkIn churnContract = ["b"] := by
    simp only [shrunkIn, nodes_churnContract, nodes_memberCall]
    rfl
  have hcontracts : churnContract.nodesOf "ContractDefinition" = [churnContract] := by cbv
  have hentry : ∀ entry, OnlyGrows churnContract entry ↔
      growthHit? ["a", "b"] ["b"] entry = some (growthHit entry) := by
    intro entry
    rw [← hgrown, ← hshrunk, growthHit?_eq_some_iff]
    exact (and_iff_left rfl).symm
  have ha : OnlyGrows churnContract (arrayDeclaration "a" 10) := (hentry _).2 rfl
  have hb : ¬ OnlyGrows churnContract (arrayDeclaration "b" 20) := by
    rw [hentry]
    decide +kernel
  have hblock : ¬ OnlyGrows churnContract churnBlock := by
    rw [hentry]
    decide +kernel
  have hentries : churnContract.children "nodes" =
      [arrayDeclaration "a" 10, arrayDeclaration "b" 20, churnBlock] := rfl
  refine ⟨hd, hid, hshallow, ha, hb, ?_⟩
  rw [detect_arrayGrowsWithoutShrink hd hid (f := f) rfl hshallow, hcontracts,
    List.flatMap_singleton, hentries]
  simp only [List.filter_cons, ha, hb, hblock, decide_true, decide_false, if_true]
  rfl

end Detector

end SolidityScan
