/-
# Rules on deep trees

A rule goes through the whole tree of a file, and on the way searches the trees below some of its
nodes.  The walk through the whole tree meets every node that any of these searches meets, so it is
the depth of the whole tree alone that decides whether the rule has a result.

* `Rules.AnswersShallow` : a rule has a result exactly on shallow trees;
* `Detector.answersShallow_structuralDetectors` : every detector for trees applies such a rule.
-/
import Mathlib.Data.List.Nodup
import SolidityScan.Catalog.Structural
import SolidityScan.Proofs.Tree.Depth

namespace SolidityScan

namespace Rules

open SyntaxNode

/-- The rule has a result exactly on shallow trees. -/
def AnswersShallow (rule : TreeRule) : Prop :=
  ∀ root, Succeeds (rule root) ↔ root.Shallow

/-- A rule that collects along a search answers on shallow trees if it does so at each node. -/
theorem answersShallow_find {kind : String} {f : SyntaxNode → Except TreeFault (List Hit)}
    (hf : ∀ n, n.Shallow → Succeeds (f n)) :
    AnswersShallow fun root => Visit.collect f (root.find kind) :=
  fun root => (explores_find root kind).succeeds_collect_iff hf

/-- A rule that looks at one node at a time answers on shallow trees. -/
theorem answersShallow_pure (kind : String) (f : SyntaxNode → List Hit) :
    AnswersShallow fun root => Visit.collect (fun n => .ok (f n)) (root.find kind) :=
  answersShallow_find fun n _ => succeeds_ok (f n)

/-! ## Arrays -/

/-- Each contract is walked on its own, and it is shallow as a part of the tree. -/
theorem answersShallow_arrayGrowsWithoutShrink : AnswersShallow arrayGrowsWithoutShrink := by
  refine answersShallow_find fun contract h => ?_
  refine Succeeds.bind ((explores_walk contract).succeeds_nodes h) fun nodes => ?_
  exact succeeds_ok _

/-- All that the rule searches is the bodies of functions. -/
theorem answersShallow_arrayPushWithoutCheck : AnswersShallow arrayPushWithoutCheck := by
  refine answersShallow_find fun function h => ?_
  split
  · exact succeeds_ok []
  · next body hbody =>
    have hb := h.child? hbody
    refine Succeeds.bind ((explores_find body _).succeeds_any hb _) fun pushes => ?_
    refine Succeeds.ite (succeeds_ok []) ?_
    refine Succeeds.bind ((explores_find body _).succeeds_any hb _) fun branches => ?_
    refine Succeeds.ite (succeeds_ok []) ?_
    refine Succeeds.bind hb.succeeds_requireConditions fun conditions => ?_
    exact Succeeds.ite (succeeds_ok []) (succeeds_ok _)

theorem answersShallow_unboundedArrayParamLoop : AnswersShallow unboundedArrayParamLoop := by
  refine answersShallow_find fun function h => ?_
  refine Succeeds.ite (succeeds_ok []) ?_
  split
  · exact succeeds_ok []
  · next body hbody =>
    have hb := h.child? hbody
    refine Succeeds.bind ((explores_walk body).succeeds_any hb _) fun loops => ?_
    refine Succeeds.ite (succeeds_ok []) ?_
    refine Succeeds.bind hb.succeeds_requireConditions fun conditions => ?_
    exact Succeeds.ite (succeeds_ok []) (succeeds_ok _)

/-! ## The zero address -/

/-- The conditions and the branches of a constructor are searched in its body. -/
theorem answersShallow_constructorZeroAddress : AnswersShallow constructorZeroAddress := by
  refine answersShallow_find fun function h => ?_
  refine Succeeds.ite (succeeds_ok []) ?_
  split
  · exact succeeds_ok _
  · next body hbody =>
    have hb := h.child? hbody
    refine Succeeds.bind hb.succeeds_requireConditions fun conditions => ?_
    refine Succeeds.bind (hb.succeeds_collectKind _) fun branches => ?_
    exact succeeds_ok _

theorem answersShallow_ecrecoverZeroCheck : AnswersShallow ecrecoverZeroCheck := by
  refine answersShallow_find fun function h => ?_
  refine Succeeds.bind (h.succeeds_collectKind _) fun declarations => ?_
  refine Succeeds.ite (succeeds_ok []) ?_
  refine Succeeds.bind h.succeeds_requireConditions fun conditions => ?_
  refine Succeeds.bind (h.succeeds_collectKind _) fun branches => ?_
  exact succeeds_ok _

/-! ## Declarations -/

theorem answersShallow_fromToEqualityCheck : AnswersShallow fromToEqualityCheck := by
  refine answersShallow_find fun function h => ?_
  refine Succeeds.ite (succeeds_ok []) ?_
  split
  · exact succeeds_ok []
  · next body hbody =>
    refine Succeeds.bind (h.child? hbody).succeeds_requireConditions fun conditions => ?_
    exact Succeeds.ite (succeeds_ok []) (succeeds_ok _)

/-- Modifiers are searched for in each contract, and requirements in each modifier. -/
theorem answersShallow_multipleRoleModifiers : AnswersShallow multipleRoleModifiers := by
  refine answersShallow_find fun contract h => ?_
  -- the inner search counts its levels from the contract, which is as shallow as the whole tree
  refine Succeeds.bind (((explores_find contract _).succeeds_collect_iff fun modifier hm => ?_).2 h)
    fun modifiers => Succeeds.ite (succeeds_ok _) (succeeds_ok [])
  refine Succeeds.bind hm.succeeds_requireConditions fun conditions => ?_
  exact Succeeds.ite (succeeds_ok _) (succeeds_ok [])

/-! ## Calls -/

/-- Sorting the calls out of loops comes after the walk and cannot fail. -/
theorem answersShallow_externalCallInLoop : AnswersShallow externalCallInLoop := by
  intro root
  have hcalls : ∀ n : SyntaxNode, n.Shallow → Succeeds (if n.isLoop then
      (do return (← n.collectKind "FunctionCall").filter isExternalCall) else pure []) := by
    intro n hn
    refine Succeeds.ite ?_ (succeeds_ok [])
    exact Succeeds.bind (hn.succeeds_collectKind _) fun calls => succeeds_ok _
  rw [← (explores_walk root).succeeds_collect_iff hcalls]
  constructor
  · intro h
    obtain ⟨calls, hfound, _⟩ := succeeds_bind_iff.1 h
    exact ⟨calls, hfound⟩
  · intro h
    exact Succeeds.bind h fun calls => succeeds_ok _

theorem answersShallow_payableWithoutWithdraw : AnswersShallow payableWithoutWithdraw := by
  refine answersShallow_find fun contract h => ?_
  refine Succeeds.ite (succeeds_ok []) ?_
  refine Succeeds.bind (((explores_find contract _).succeeds_collect_iff fun function hf => ?_).2 h)
    fun functions => Succeeds.ite (succeeds_ok _) (succeeds_ok [])
  refine Succeeds.bind ((explores_find function _).succeeds_any hf _) fun withdraws => ?_
  exact succeeds_ok _

theorem answersShallow_unsafeSignedCast : AnswersShallow unsafeSignedCast := by
  refine answersShallow_find fun function h => ?_
  split
  · exact succeeds_ok []
  · next body hbody =>
    refine Succeeds.bind ((h.child? hbody).succeeds_collectKind _) fun calls => ?_
    exact succeeds_ok _

/-- A block of assembly in a shallow tree is searched to its end. -/
theorem succeeds_callsReturn {assembly : SyntaxNode} (h : assembly.Shallow) :
    Succeeds (callsReturn assembly) := by
  unfold callsReturn
  split
  · exact succeeds_ok false
  · next block hblock => exact (explores_find block _).succeeds_any (h.child? hblock) _

theorem answersShallow_yulReturn : AnswersShallow yulReturn := by
  refine answersShallow_find fun function h => ?_
  refine ((explores_find function _).succeeds_collect_iff fun assembly ha => ?_).2 h
  refine Succeeds.bind (succeeds_callsReturn ha) fun returns => ?_
  exact Succeeds.ite (succeeds_ok _) (succeeds_ok [])

end Rules

/-! ## Detectors -/

namespace Detector

/-- The detector applies a rule that has a result exactly on shallow trees. -/
def AnswersShallow (d : Detector) : Prop :=
  ∃ rule, d.matcher = .structural (Ending.ofRule rule) ∧ Rules.AnswersShallow rule

/-- The detector of a rule answers whenever the rule does. -/
theorem answersShallow_ofRule {id title description : String} {severity : Severity}
    {rule : TreeRule} (h : Rules.AnswersShallow rule) :
    (ofRule id title description severity rule).AnswersShallow :=
  ⟨rule, rfl, h⟩

namespace AnswersShallow

variable {d : Detector} {f : SourceFile} {root : SyntaxNode}

/-- A detector for trees has hits, maybe none, if no node lies too deep. -/
theorem detect_of_shallow (h : d.AnswersShallow) (htree : f.tree? = some root)
    (hroot : root.Shallow) : ∃ hits, d.detect f = .hits hits := by
  obtain ⟨rule, hmatcher, hrule⟩ := h
  obtain ⟨hits, hhits⟩ := (hrule root).2 hroot
  refine ⟨hits, ?_⟩
  simp [detect, hmatcher, Ending.ofRule, htree, hhits]

/-- It fails with a fault of the tree if a node lies too deep. -/
theorem detect_of_not_shallow (h : d.AnswersShallow) (htree : f.tree? = some root)
    (hroot : ¬ root.Shallow) : ∃ fault, d.detect f = .failed (.engine (.structural fault)) := by
  obtain ⟨rule, hmatcher, hrule⟩ := h
  cases hresult : rule root with
  | ok hits => exact absurd ((hrule root).1 ⟨hits, hresult⟩) hroot
  | error fault =>
    refine ⟨fault, ?_⟩
    simp [detect, hmatcher, Ending.ofRule, htree, hresult]

/-- A file has hits if its tree, should it have one, is shallow. -/
theorem detect_of_forall (h : d.AnswersShallow) (hf : ∀ root, f.tree? = some root → root.Shallow) :
    ∃ hits, d.detect f = .hits hits := by
  cases htree : f.tree? with
  | some root => exact h.detect_of_shallow htree (hf root htree)
  | none =>
    obtain ⟨rule, hmatcher, _⟩ := h
    refine ⟨[], ?_⟩
    simp [detect, hmatcher, htree]

end AnswersShallow

/-- Every detector for trees goes through shallow trees to their end. -/
theorem answersShallow_structuralDetectors :
    ∀ d ∈ Catalog.structuralDetectors, d.AnswersShallow := by
  unfold Catalog.structuralDetectors
  simp only [List.forall_mem_cons]
  refine ⟨answersShallow_ofRule Rules.answersShallow_ecrecoverZeroCheck,
    answersShallow_ofRule Rules.answersShallow_payableWithoutWithdraw,
    answersShallow_ofRule Rules.answersShallow_arrayGrowsWithoutShrink,
    answersShallow_ofRule Rules.answersShallow_arrayPushWithoutCheck,
    answersShallow_ofRule Rules.answersShallow_constructorZeroAddress,
    answersShallow_ofRule (Rules.answersShallow_pure _ _),
    answersShallow_ofRule Rules.answersShallow_unboundedArrayParamLoop,
    answersShallow_ofRule Rules.answersShallow_externalCallInLoop,
    answersShallow_ofRule Rules.answersShallow_fromToEqualityCheck,
    answersShallow_ofRule Rules.answersShallow_multipleRoleModifiers,
    answersShallow_ofRule (Rules.answersShallow_pure _ _),
    answersShallow_ofRule (Rules.answersShallow_pure _ _),
    answersShallow_ofRule (Rules.answersShallow_pure _ _),
    answersShallow_ofRule Rules.answersShallow_unsafeSignedCast,
    answersShallow_ofRule Rules.answersShallow_yulReturn,
    answersShallow_ofRule (Rules.answersShallow_pure _ _),
    answersShallow_ofRule (Rules.answersShallow_pure _ _), ?_⟩
  intro d hd
  cases hd

theorem nodup_ids_structuralDetectors : (Catalog.structuralDetectors.map (·.id)).Nodup := by
  decide +kernel

/-- The id tells which rule a detector for trees applies, and so what it reports. -/
theorem detect_of_id {d e : Detector} {rule : TreeRule} {f : SourceFile} {root : SyntaxNode}
    {hits : List Hit} (hd : d ∈ Catalog.structuralDetectors) (he : e ∈ Catalog.structuralDetectors)
    (hid : d.id = e.id) (hrule : e.matcher = .structural (Ending.ofRule rule))
    (htree : f.tree? = some root) (hhits : rule root = .ok hits) : d.detect f = .hits hits := by
  obtain rfl := List.inj_on_of_nodup_map nodup_ids_structuralDetectors hd he hid
  simp [detect, hrule, Ending.ofRule, htree, hhits]

/-- The detector fails exactly on trees with a node too far below the root, as a fault of the
tree, and has hits on every other tree, among them all that are read from JSON. -/
structure FailsWhenTooDeep (d : Detector) : Prop where
  fails_iff : ∀ (f : SourceFile) (root : SyntaxNode), f.tree? = some root →
    ((∃ failure, d.detect f = .failed failure) ↔
      ∃ k n, SyntaxNode.LiesBelow root k n ∧ maxTreeDepth < k)
  hits_or_structural : ∀ f : SourceFile, (∃ hits, d.detect f = .hits hits) ∨
    ∃ fault, d.detect f = .failed (.engine (.structural fault))
  hits_of_json : ∀ (f : SourceFile) (v : Json), ∃ hits, d.detect (f.withTreeJson v) = .hits hits
  hits_of_text : ∀ (f : SourceFile) (text : String),
    ∃ hits, d.detect (f.withTreeText text) = .hits hits
  hits_of_read : ∀ (f : SourceFile) (v : Json) (root : SyntaxNode),
    SyntaxNode.ofJson maxTreeDepth v = .ok root → ∃ hits, d.detect (f.withTree root) = .hits hits

/-- Depth is the only reason for which a detector for trees fails. -/
theorem AnswersShallow.fails_iff {d : Detector} {f : SourceFile} {root : SyntaxNode}
    (h : d.AnswersShallow) (htree : f.tree? = some root) :
    (∃ failure, d.detect f = .failed failure) ↔ ¬ root.Shallow := by
  constructor
  · rintro ⟨failure, hfailed⟩ hroot
    obtain ⟨hits, hhits⟩ := h.detect_of_shallow htree hroot
    rw [hhits] at hfailed
    cases hfailed
  · intro hroot
    obtain ⟨fault, hfailed⟩ := h.detect_of_not_shallow htree hroot
    exact ⟨_, hfailed⟩

/-- **The detectors for trees fail exactly on trees that are too deep.** -/
theorem structuralDetectors_failWhenTooDeep :
    Catalog.structuralDetectors.length = 17 ∧
      ∀ d ∈ Catalog.structuralDetectors, d.FailsWhenTooDeep := by
  refine ⟨rfl, fun d hd => ?_⟩
  have h := answersShallow_structuralDetectors d hd
  refine ⟨?_, ?_, ?_, ?_, ?_⟩
  · intro f root htree
    rw [h.fails_iff htree, SyntaxNode.not_shallow_iff]
  · intro f
    by_cases hf : ∀ root, f.tree? = some root → root.Shallow
    · exact Or.inl (h.detect_of_forall hf)
    · push Not at hf
      obtain ⟨root, htree, hroot⟩ := hf
      exact Or.inr (h.detect_of_not_shallow htree hroot)
  · intro f v
    exact h.detect_of_forall fun root => SourceFile.shallow_of_withTreeJson
  · intro f text
    exact h.detect_of_forall fun root => SourceFile.shallow_of_withTreeText
  · intro f v root hread
    exact h.detect_of_shallow rfl (SyntaxNode.shallow_of_ofJson hread)

/-- A tree of nodes that each have one child, so many levels deep. -/
def nestedBlocks : Nat → SyntaxNode
  | 0 => .leaf "Block" {}
  | depth + 1 => .mk "Block" {} [("body", .child (some (nestedBlocks depth)))]

theorem nestedBlocks_liesBelow (k depth : Nat) :
    SyntaxNode.LiesBelow (nestedBlocks (k + depth)) k (nestedBlocks depth) := by
  induction k generalizing depth with
  | zero =>
    rw [Nat.zero_add]
    exact .root
  | succ k ih =>
    have hbelow := ih (depth + 1)
    rw [show k + 1 + depth = k + (depth + 1) by omega]
    exact hbelow.child (List.mem_singleton_self _) (List.mem_singleton_self _)

theorem nestedBlocks_fitsAt {limit top depth : Nat} (h : top + depth ≤ limit) :
    (nestedBlocks depth).FitsAt limit top := by
  induction depth generalizing top with
  | zero =>
    refine SyntaxNode.fitsAt_of_children h ?_
    intro p hp
    cases hp
  | succ depth ih =>
    refine SyntaxNode.fitsAt_of_children (by omega) ?_
    intro p hp c hc
    rw [List.mem_singleton.1 hp] at hc
    rw [List.mem_singleton.1 hc]
    exact ih (by omega)

theorem structuralDetectors_failWhenTooDeep_nestedBlocks :
    let d := Catalog.structuralDetectors.get ⟨7, by decide⟩
    let f : SourceFile := { path := "a.sol", text := "" }
    d ∈ Catalog.structuralDetectors ∧
      (∃ hits, d.detect (f.withTree (nestedBlocks maxTreeDepth)) = .hits hits) ∧
      ∃ failure, d.detect (f.withTree (nestedBlocks (maxTreeDepth + 1))) = .failed failure := by
  intro d f
  have hd : d ∈ Catalog.structuralDetectors := List.get_mem _ _
  have h := structuralDetectors_failWhenTooDeep.2 d hd
  refine ⟨hd, ?_, ?_⟩
  · rcases h.hits_or_structural (f.withTree (nestedBlocks maxTreeDepth)) with
      hhits | ⟨fault, hfault⟩
    · exact hhits
    · obtain ⟨k, n, hbelow, hlt⟩ := (h.fails_iff _ _ rfl).1 ⟨_, hfault⟩
      have hle := nestedBlocks_fitsAt (Nat.le_of_eq (Nat.zero_add maxTreeDepth)) k n hbelow
      omega
  · refine (h.fails_iff _ _ rfl).2 ?_
    exact ⟨_, _, nestedBlocks_liesBelow (maxTreeDepth + 1) 0, Nat.lt_succ_self _⟩

end Detector

end SolidityScan
