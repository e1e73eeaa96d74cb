/-
# External calls in loops

The rule goes through the tree and searches every loop that it meets for calls that may leave the
contract.  A call in several loops is found once for each of them, and a loop is found before the
loops in it, so the calls are found neither once nor in order; what is reported are their ranges,
each once and in the order of their offsets.  A call is found at all if some node above it is a
loop.

* `Rules.mem_loopCalls_iff` : the calls that are found, by the nodes above them;
* `Detector.detect_externalCallInLoop` : what is reported.
-/
import SolidityScan.Proofs.Rules.DepthBound
import SolidityScan.Proofs.Tree.Nodes

namespace SolidityScan

namespace Rules

open SyntaxNode

/-! ## First occurrences -/

theorem mem_distinct {α : Type} [BEq α] [LawfulBEq α] {a : α} {l : List α} :
    a ∈ distinct l ↔ a ∈ l := by
  induction l with
  | nil => rfl
  | cons b l ih =>
    rw [distinct, List.mem_cons, List.mem_cons, List.mem_filter, ih, bne_iff_ne]
    constructor
    · rintro (rfl | ⟨hmem, -⟩)
      · exact Or.inl rfl
      · exact Or.inr hmem
    · intro h
      by_cases hab : a = b
      · exact Or.inl hab
      · exact Or.inr ⟨h.resolve_left hab, hab⟩

theorem nodup_distinct {α : Type} [BEq α] [LawfulBEq α] (l : List α) : (distinct l).Nodup := by
  induction l with
  | nil => exact List.nodup_nil
  | cons b l ih =>
    rw [distinct, List.nodup_cons]
    refine ⟨?_, ih.filter _⟩
    intro hmem
    exact absurd rfl (bne_iff_ne.1 (List.mem_filter.1 hmem).2)

/-! ## Calls in loops -/

/-- The kinds of loops. -/
def loopKinds : List String := ["ForStatement", "WhileStatement", "DoWhileStatement"]

theorem isLoop_iff {n : SyntaxNode} : n.isLoop = true ↔ n.kind ∈ loopKinds := by
  simp [isLoop, loopKinds, is_iff, or_assoc]

/-- The node is a call that may leave the contract, and some node above it in the tree is a loop. -/
structure LoopCall (root call : SyntaxNode) : Prop where
  kind : call.kind = "FunctionCall"
  external : isExternalCall call = true
  inLoop : ∃ loop, root.Contains loop ∧ loop.kind ∈ loopKinds ∧ loop.Above call

/-- The calls that may leave the contract, for each loop of the tree. -/
def loopCalls (root : SyntaxNode) : List SyntaxNode :=
  root.nodes.flatMap fun n =>
    if n.isLoop then (n.nodesOf "FunctionCall").filter isExternalCall else []

/-- **A call is found if some node above it is a loop.** -/
theorem mem_loopCalls_iff {root call : SyntaxNode} :
    call ∈ loopCalls root ↔ LoopCall root call := by
  rw [loopCalls, List.mem_flatMap]
  constructor
  · rintro ⟨loop, hloop, hcall⟩
    split_ifs at hcall with hkind
    · obtain ⟨hbelow, hexternal⟩ := List.mem_filter.1 hcall
      obtain ⟨hcontains, hcallKind⟩ := mem_nodesOf_iff.1 hbelow
      have hloopKind := isLoop_iff.1 hkind
      -- the call is not the loop itself, which is of another kind
      have hne : loop.kind ≠ call.kind := by
        intro heq
        rw [heq, hcallKind] at hloopKind
        exact absurd hloopKind (by decide)
      exact ⟨hcallKind, hexternal, loop, mem_nodes_iff.1 hloop, hloopKind, hcontains.above hne⟩
    · cases hcall
  · rintro ⟨hcallKind, hexternal, loop, hloop, hloopKind, habove⟩
    refine ⟨loop, mem_nodes_iff.2 hloop, ?_⟩
    rw [if_pos (isLoop_iff.2 hloopKind)]
    exact List.mem_filter.2 ⟨mem_nodesOf_iff.2 ⟨habove.contains, hcallKind⟩, hexternal⟩

/-- The ranges of the calls that are found, each once and in order of offsets. -/
def loopCallRanges (root : SyntaxNode) : List SourceRange :=
  (distinct ((loopCalls root).map src)).mergeSort fun a b => decide (a.offset ≤ b.offset)

theorem externalCallInLoop_eq {root : SyntaxNode} (h : root.Shallow) :
    externalCallInLoop root = .ok ((loopCallRanges root).map fun range => { range }) := by
  have hcalls : ∀ n : SyntaxNode, n.Shallow →
      (if n.isLoop then (do return (← n.collectKind "FunctionCall").filter isExternalCall)
        else pure [] : Except TreeFault (List SyntaxNode)) =
      .ok (if n.isLoop then (n.nodesOf "FunctionCall").filter isExternalCall else []) := by
    intro n hn
    split_ifs
    · rw [hn.collectKind_eq]
      rfl
    · rfl
  unfold externalCallInLoop
  rw [h.collect_walk_eq hcalls]
  rfl

theorem mem_loopCallRanges_iff {root : SyntaxNode} {r : SourceRange} :
    r ∈ loopCallRanges root ↔ ∃ call, LoopCall root call ∧ call.src = r := by
  rw [loopCallRanges, List.mem_mergeSort, mem_distinct, List.mem_map]
  simp only [mem_loopCalls_iff]

theorem nodup_loopCallRanges (root : SyntaxNode) : (loopCallRanges root).Nodup :=
  (List.mergeSort_perm _ _).nodup_iff.2 (nodup_distinct _)

theorem loopCallRanges_ascending (root : SyntaxNode) :
    (loopCallRanges root).Pairwise fun a b => a.offset ≤ b.offset := by
  refine (List.pairwise_mergeSort ?_ ?_ (distinct ((loopCalls root).map src))).imp
    fun h => of_decide_eq_true h
  · simp only [decide_eq_true_eq]
    omega
  · simp only [Bool.or_eq_true, decide_eq_true_eq]
    omega

end Rules

namespace Detector

open SyntaxNode Rules

/-- **External calls in loops are reported once each**, in order of offsets and without a message,
however many loops they are in. -/
theorem detect_externalCallInLoop {d : Detector} (hd : d ∈ Catalog.structuralDetectors)
    (hid : d.id = "external-call-in-loop") {f : SourceFile} {root : SyntaxNode}
    (htree : f.tree? = some root) (hroot : root.Shallow) :
    ∃ hits, d.detect f = .hits hits ∧
      (hits.map (·.range)).Nodup ∧
      hits.Pairwise (fun a b => a.range.offset ≤ b.range.offset) ∧
      (∀ hit ∈ hits, hit.message = none) ∧
      ∀ r, (∃ hit ∈ hits, hit.range = r) ↔ ∃ call, LoopCall root call ∧ call.src = r := by
  refine ⟨_, detect_of_id hd (List.get_mem _ ⟨7, by decide⟩) hid rfl htree
    (externalCallInLoop_eq hroot), ?_, ?_, ?_, ?_⟩
  · rw [List.map_map]
    exact (List.map_id _).symm ▸ nodup_loopCallRanges root
  · exact List.pairwise_map.2 (loopCallRanges_ascending root)
  · exact List.forall_mem_map.2 fun _ _ => rfl
  · intro r
    rw [← mem_loopCallRanges_iff]
    simp

/-- A loop with a call of `token.pay` and one of `abi.encode`. -/
def innerLoop : SyntaxNode :=
  .mk "DoWhileStatement" ⟨10, 50, some 0⟩
    [("body",
      .sequence [some (memberCall "token" "pay" 20), none, some (memberCall "abi" "encode" 40)])]

/-- A loop with this loop in it. -/
def outerLoop : SyntaxNode :=
  .mk "ForStatement" ⟨5, 60, some 0⟩ [("body", .child (some innerLoop))]

/-- The two loops, one in the other, and another call of `token.pay` after them. -/
def loopBlock : SyntaxNode :=
  .mk "Block" ⟨0, 90, some 0⟩
    [("statements", .sequence [some outerLoop, some (memberCall "token" "pay" 70)])]

/-- The call in both loops is found for each of them. -/
theorem loopCalls_loopBlock :
    loopCalls loopBlock = [memberCall "token" "pay" 20, memberCall "token" "pay" 20] := by
  have hinner : innerLoop.nodes = innerLoop ::
      ((memberCall "token" "pay" 20).nodes ++ (memberCall "abi" "encode" 40).nodes) := by cbv
  have houter : outerLoop.nodes = outerLoop :: innerLoop.nodes := by cbv
  have hblock : loopBlock.nodes =
      loopBlock :: (outerLoop.nodes ++ (memberCall "token" "pay" 70).nodes) := by cbv
  simp only [loopCalls, nodesOf, hblock, houter, hinner, nodes_memberCall, List.flatMap_cons,
    List.flatMap_nil, List.cons_append, List.nil_append]
  rfl

theorem detect_externalCallInLoop_loopBlock :
    let d := Catalog.structuralDetectors.get ⟨7, by decide⟩
    let f : SourceFile := { path := "a.sol", text := "", tree := .present loopBlock }
    d ∈ Catalog.structuralDetectors ∧ d.id = "external-call-in-loop" ∧ loopBlock.Shallow ∧
      LoopCall loopBlock (memberCall "token" "pay" 20) ∧
      ∃ hits, d.detect f = .hits hits ∧ (hits.map (·.range)).Nodup ∧
        ∀ r, (∃ hit ∈ hits, hit.range = r) ↔ r = ⟨20, 3, some 0⟩ := by
  intro d f
  have hd : d ∈ Catalog.structuralDetectors := List.get_mem _ _
  have hid : d.id = "external-call-in-loop" := rfl
  have hshallow : loopBlock.Shallow := shallow_of_size_le (by decide +kernel)
  have hcall : ∀ call, LoopCall loopBlock call ↔ call = memberCall "token" "pay" 20 := by
    intro call
    rw [← mem_loopCalls_iff, loopCalls_loopBlock, List.mem_cons, List.mem_singleton, or_self]
  obtain ⟨hits, hhits, hnodup, -, -, hiff⟩ := detect_externalCallInLoop hd hid (f := f) rfl hshallow
  refine ⟨hd, hid, hshallow, (hcall _).2 rfl, hits, hhits, hnodup, fun r => ?_⟩
  rw [hiff]
  simp only [hcall, exists_eq_left]
  exact eq_comm

end Detector

end SolidityScan
