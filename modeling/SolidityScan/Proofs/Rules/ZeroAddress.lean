/-
# Addresses that are not checked against zero

The code below a node makes sure that an identifier is not zero by requiring so, or by branching
when it is.  Rules gather the required conditions and the branches in walks of their own and then
ask about every identifier; all that their answer depends on is whether the code contains a guard of
the identifier.

* `Rules.Guards` : the two ways to guard an identifier, each about one identifier only;
* `Rules.Recovers` : the declaration of a recovered signer;
* `Detector.detect_ecrecoverZeroCheck` : which recovered signers are reported.
-/
import SolidityScan.Proofs.Rules.DepthBound
import SolidityScan.Proofs.Tree.Nodes

namespace SolidityScan

namespace Rules

open SyntaxNode

/-! ## Guards -/

/-- The node makes sure that the identifier is not zero: it requires that, or it is a branch that is
taken when the identifier is zero. -/
inductive Guards (n : SyntaxNode) (name : String) : Prop where
  | require {target condition : SyntaxNode} : n.Calls target → target.IsNamed "require" →
      n.firstArgument? = some condition → condition.ComparesToZero "!=" name → Guards n name
  | branch {condition : SyntaxNode} : n.kind = "IfStatement" →
      n.child? "condition" = some condition → condition.ComparesToZero "==" name → Guards n name

/-- The code contains a guard of the identifier. -/
def Guarded (scope : SyntaxNode) (name : String) : Prop :=
  ∃ n, scope.Contains n ∧ Guards n name

/-- **A guard is about one identifier only.** -/
theorem Guards.unique {n : SyntaxNode} {name other : String} (h : Guards n name)
    (h' : Guards n other) : name = other := by
  cases h with
  | require htarget _ hfirst hzero =>
    cases h' with
    | require _ _ hfirst' hzero' =>
      cases hfirst.symm.trans hfirst'
      exact hzero.unique hzero'
    | branch hkind _ _ =>
      rw [htarget.kind] at hkind
      exact absurd hkind (by decide)
  | branch hkind hcondition hzero =>
    cases h' with
    | require htarget _ _ _ =>
      rw [htarget.kind] at hkind
      exact absurd hkind (by decide)
    | branch _ hcondition' hzero' =>
      cases hcondition.symm.trans hcondition'
      exact hzero.unique hzero'

theorem guardsNonZero_iff {n : SyntaxNode} {name : String} :
    n.guardsNonZero name = true ↔ n.ComparesToZero "!=" name :=
  any_pairsWithZero_iff

theorem branchesOnZero_iff {n : SyntaxNode} {name : String} :
    n.branchesOnZero name = true ↔
      ∃ condition, n.child? "condition" = some condition ∧ condition.ComparesToZero "==" name := by
  rw [branchesOnZero, Option.any_bind, Option.any_eq_true]
  simp only [Function.comp_apply, any_pairsWithZero_iff]

/-- **Conditions and branches of a piece of code check an identifier if the code guards it.** -/
theorem isCheckedAgainstZero_iff {scope : SyntaxNode} {name : String} :
    isCheckedAgainstZero scope.requiredConditions (scope.nodesOf "IfStatement") name = true ↔
      Guarded scope name := by
  rw [isCheckedAgainstZero, Bool.or_eq_true, List.any_eq_true, List.any_eq_true]
  simp only [mem_requiredConditions_iff, mem_nodesOf_iff, guardsNonZero_iff, branchesOnZero_iff]
  constructor
  · rintro (⟨_, ⟨call, _, hcall, htarget, hname, hfirst⟩, hzero⟩ |
      ⟨n, ⟨hn, hkind⟩, _, hcondition, hzero⟩)
    · exact ⟨call, hcall, .require htarget hname hfirst hzero⟩
    · exact ⟨n, hn, .branch hkind hcondition hzero⟩
  · rintro ⟨n, hn, hguards⟩
    cases hguards with
    | require htarget hname hfirst hzero =>
      exact Or.inl ⟨_, ⟨n, _, hn, htarget, hname, hfirst⟩, hzero⟩
    | branch hkind hcondition hzero => exact Or.inr ⟨n, ⟨hn, hkind⟩, _, hcondition, hzero⟩

instance (scope : SyntaxNode) (name : String) : Decidable (Guarded scope name) :=
  decidable_of_iff _ isCheckedAgainstZero_iff

/-! ## Recovered signers -/

/-- The statement gives a name to a recovered signer: its value is a call of `ecrecover`, and the
name is that of the first variable, which must not be left out. -/
structure Recovers (statement : SyntaxNode) (name : String) : Prop where
  value : ∃ value target, statement.child? "initialValue" = some value ∧ value.Calls target ∧
    target.IsNamed "ecrecover"
  first : ∃ first rest, statement.slots "declarations" = some first :: rest ∧
    first.string? "name" = some name

/-- The statement recovers a signer that the function does not guard. -/
def RecoversUnguarded (function statement : SyntaxNode) : Prop :=
  ∃ name, Recovers statement name ∧ ¬ Guarded function name

theorem recoveredName?_eq_some_iff {statement : SyntaxNode} {name : String} :
    recoveredName? statement = some name ↔ Recovers statement name := by
  have hvalue : (statement.child? "initialValue").any (·.isCallTo "ecrecover") = true ↔
      ∃ value target, statement.child? "initialValue" = some value ∧ value.Calls target ∧
        target.IsNamed "ecrecover" := by
    simp only [Option.any_eq_true, isCallTo_iff, exists_and_left]
  have hfirst : (statement.slots "declarations").head?.join.bind (·.string? "name") = some name ↔
      ∃ first rest, statement.slots "declarations" = some first :: rest ∧
        first.string? "name" = some name := by
    simp only [Option.bind_eq_some_iff, head?_join_eq_some_iff, exists_and_right]
  unfold recoveredName?
  constructor
  · intro h
    split_ifs at h with hcall
    exact ⟨hvalue.1 hcall, hfirst.1 h⟩
  · rintro ⟨hcall, hname⟩
    rw [if_pos (hvalue.2 hcall)]
    exact hfirst.2 hname

instance (function statement : SyntaxNode) : Decidable (RecoversUnguarded function statement) :=
  decidable_of_iff ((recoveredName? statement).any fun name => ¬ Guarded function name) <| by
    simp only [Option.any_eq_true, recoveredName?_eq_some_iff, decide_eq_true_eq]
    rfl

/-- Recoveries are paired with their names and those with a guarded name left out, which selects the
statements that recover an unguarded name. -/
theorem unguarded_recoveries_eq (function : SyntaxNode) (statements : List SyntaxNode) :
    (((statements.filterMap fun d => (recoveredName? d).map (d, ·)).filter fun (_, name) =>
      !isCheckedAgainstZero function.requiredConditions (function.nodesOf "IfStatement") name).map
        fun (d, _) => ({ range := d.src } : Hit)) =
      (statements.filter fun statement => RecoversUnguarded function statement).map
        fun statement => { range := statement.src } := by
  have hguard : ∀ name, (!isCheckedAgainstZero function.requiredConditions
      (function.nodesOf "IfStatement") name) = true ↔ ¬ Guarded function name := by
    intro name
    rw [Bool.not_eq_true', ← Bool.not_eq_true, isCheckedAgainstZero_iff]
  rw [List.filter_filterMap, List.map_filterMap]
  refine Lists.filterMap_eq_map_filter (fun statement hit => ?_) statements
  rw [decide_eq_true_eq, Option.map_eq_some_iff]
  simp only [Option.filter_eq_some_iff, Option.map_eq_some_iff, recoveredName?_eq_some_iff, hguard]
  constructor
  · rintro ⟨_, ⟨⟨name, hname, rfl⟩, hunguarded⟩, rfl⟩
    exact ⟨⟨name, hname, hunguarded⟩, rfl⟩
  · rintro ⟨⟨name, hname, hunguarded⟩, rfl⟩
    exact ⟨(statement, name), ⟨⟨name, hname, rfl⟩, hunguarded⟩, rfl⟩

theorem ecrecoverZeroCheck_eq {root : SyntaxNode} (h : root.Shallow) :
    ecrecoverZeroCheck root = .ok ((root.nodesOf "FunctionDefinition").flatMap fun function =>
      ((function.nodesOf "VariableDeclarationStatement").filter fun statement =>
        RecoversUnguarded function statement).map fun statement => { range := statement.src }) := by
  refine h.collect_find_eq _ fun function hfunction => ?_
  rw [← unguarded_recoveries_eq, hfunction.collectKind_eq, hfunction.collectKind_eq,
    hfunction.requireConditions_eq]
  simp only [bind, Except.bind]
  split_ifs with hnone
  · -- nothing is recovered, so nothing is left unguarded
    rw [List.isEmpty_iff.1 hnone]
    rfl
  · rfl

end Rules

namespace Detector

open SyntaxNode Rules

/-- **Recovered signers are reported where they are declared, unless the function guards them.**
The report is made function by function and in the order of the statements.  A guard is about one
name, so the guard of one signer leaves the others as they are. -/
theorem detect_ecrecoverZeroCheck {d : Detector} (hd : d ∈ Catalog.structuralDetectors)
    (hid : d.id = "ecrecover-zero-check") {f : SourceFile} {root : SyntaxNode}
    (htree : f.tree? = some root) (hroot : root.Shallow) :
    d.detect f = .hits ((root.nodesOf "FunctionDefinition").flatMap fun function =>
      ((function.nodesOf "VariableDeclarationStatement").filter fun statement =>
        RecoversUnguarded function statement).map fun statement => { range := statement.src }) ∧
    ∀ n name other, Guards n name → Guards n other → name = other :=
  ⟨detect_of_id hd (List.get_mem _ ⟨0, by decide⟩) hid rfl htree (ecrecoverZeroCheck_eq hroot),
    fun _ _ _ => Guards.unique⟩

/-- The call that recovers a signer. -/
def recoverCall (offset : Nat) : SyntaxNode :=
  callOf (identifier "ecrecover" ⟨offset, 5, some 0⟩) [] ⟨offset, 7, some 0⟩

/-- The declaration of a signer that is recovered. -/
def recovery (name : String) (offset : Nat) : SyntaxNode :=
  .mk "VariableDeclarationStatement" ⟨offset, 9, some 0⟩
    [("declarations", .sequence
      [some (.mk "VariableDeclaration" ⟨offset, 1, some 0⟩ [("name", .scalar (.str name))])]),
      ("initialValue", .child (some (recoverCall (offset + 2))))]

/-- A branch that is taken when `b` is zero. -/
def signerBranch : SyntaxNode :=
  .mk "IfStatement" ⟨15, 12, some 0⟩ [("condition", .child (some (.mk "BinaryOperation"
    ⟨18, 8, some 0⟩
    [("leftExpression", .child (some (.mk "Literal" ⟨18, 4, some 0⟩
      [("value", .scalar (.str "0x00"))]))),
      ("operator", .scalar (.str "==")),
      ("rightExpression", .child (some (identifier "b" ⟨25, 1, some 0⟩)))])))]

/-- A function that recovers `a` and `b`, with the branch between them. -/
def signerFunction : SyntaxNode :=
  .mk "FunctionDefinition" ⟨0, 50, some 0⟩ [("body", .sequence
    [some (recovery "a" 5), some signerBranch, some (recovery "b" 30)])]

theorem guards_signerBranch : Guards signerBranch "b" :=
  .branch rfl rfl (any_pairsWithZero_iff.1 (by decide +kernel))

/-- The branch is the only guard of the function. -/
theorem guarded_signerFunction_iff (name : String) :
    Guarded signerFunction name ↔ Guards signerBranch name := by
  have hcalls : signerFunction.nodesOf "FunctionCall" = [recoverCall 7, recoverCall 32] := by cbv
  have hconditions : signerFunction.requiredConditions = [] := by
    rw [requiredConditions, hcalls]
    rfl
  have hbranches : signerFunction.nodesOf "IfStatement" = [signerBranch] := by cbv
  constructor
  · intro h
    rw [← isCheckedAgainstZero_iff, hconditions, hbranches, isCheckedAgainstZero, List.any_nil,
      Bool.false_or, List.any_cons, List.any_nil, Bool.or_false, branchesOnZero_iff] at h
    obtain ⟨_, hcondition, hzero⟩ := h
    exact .branch rfl hcondition hzero
  · intro h
    have hmem : signerBranch ∈ signerFunction.nodesOf "IfStatement" := by
      rw [hbranches]
      exact List.mem_singleton_self _
    exact ⟨signerBranch, (mem_nodesOf_iff.1 hmem).1, h⟩

theorem detect_ecrecoverZeroCheck_signers :
    let d := Catalog.structuralDetectors.get ⟨0, by decide⟩
    let f : SourceFile := { path := "a.sol", text := "", tree := .present signerFunction }
    d ∈ Catalog.structuralDetectors ∧ d.id = "ecrecover-zero-check" ∧ signerFunction.Shallow ∧
      Recovers (recovery "a" 5) "a" ∧ Recovers (recovery "b" 30) "b" ∧
      Guards signerBranch "b" ∧ ¬ Guards signerBranch "a" ∧
      d.detect f = .hits [{ range := ⟨5, 9, some 0⟩ }] := by
  intro d f
  have hd : d ∈ Catalog.structuralDetectors := List.get_mem _ _
  have hid : d.id = "ecrecover-zero-check" := rfl
  have hshallow : signerFunction.Shallow := shallow_of_size_le (by decide +kernel)
  obtain ⟨hdetect, hunique⟩ := detect_ecrecoverZeroCheck hd hid (f := f) rfl hshallow
  have ha : Recovers (recovery "a" 5) "a" := recoveredName?_eq_some_iff.1 rfl
  have hb : Recovers (recovery "b" 30) "b" := recoveredName?_eq_some_iff.1 rfl
  have hother : ¬ Guards signerBranch "a" := fun h =>
    absurd (hunique _ _ _ h guards_signerBranch) (by decide)
  have hreported : RecoversUnguarded signerFunction (recovery "a" 5) :=
    ⟨"a", ha, mt (guarded_signerFunction_iff "a").1 hother⟩
  have hsilent : ¬ RecoversUnguarded signerFunction (recovery "b" 30) := by
    rintro ⟨name, hname, hunguarded⟩
    cases (recoveredName?_eq_some_iff.2 hname).symm.trans (recoveredName?_eq_some_iff.2 hb)
    exact hunguarded ((guarded_signerFunction_iff "b").2 guards_signerBranch)
  have hfunctions : signerFunction.nodesOf "FunctionDefinition" = [signerFunction] := by cbv
  have hstatements : signerFunction.nodesOf "VariableDeclarationStatement" =
      [recovery "a" 5, recovery "b" 30] := by cbv
  refine ⟨hd, hid, hshallow, ha, hb, guards_signerBranch, hother, ?_⟩
  rw [hdetect, hfunctions, List.flatMap_singleton, hstatements]
  simp only [List.filter_cons, hreported, hsilent, decide_true, decide_false, if_true]
  rfl

end Detector

end SolidityScan
