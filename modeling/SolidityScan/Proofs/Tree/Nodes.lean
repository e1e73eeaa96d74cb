/-
# Searching shallow trees

A shallow tree has no node for a walk to stop at, so every search through it is a selection from the
list of all its nodes in recursive order.  What a rule asks of the code below a node is then a
question about this list, and, where only the existence of a node matters, one about what the node
contains.

* `SyntaxNode.mem_nodes_iff` : the list holds the nodes that the tree contains;
* `SyntaxNode.Shallow.collectKind_eq`, `SyntaxNode.Shallow.requireConditions_eq` : what searches
  give;
* `SyntaxNode.Shallow.collect_find_eq` : what a rule collects along a search.
-/
import SolidityScan.Proofs.Tree.Shapes
import SolidityScan.Proofs.Tree.Traversal

namespace SolidityScan

namespace SyntaxNode

/-! ## What a tree contains -/

/-- The nodes of a tree, in recursive order. -/
def nodes (root : SyntaxNode) : List SyntaxNode :=
  root.preorder.map (·.2)

/-- The nodes of the given kind, in recursive order. -/
def nodesOf (root : SyntaxNode) (kind : String) : List SyntaxNode :=
  root.nodes.filter (·.is kind)

/-- The second node is the first one, or lies somewhere below it. -/
def Contains (root n : SyntaxNode) : Prop :=
  ∃ k, LiesBelow root k n

/-- The second node lies below the first one. -/
def Above (n m : SyntaxNode) : Prop :=
  ∃ k, LiesBelow n (k + 1) m

/-- A node that a node of another kind contains lies below it. -/
theorem Contains.above {n m : SyntaxNode} (h : n.Contains m) (hkind : n.kind ≠ m.kind) :
    n.Above m := by
  obtain ⟨_ | k, hk⟩ := h
  · cases hk
    exact absurd rfl hkind
  · exact ⟨k, hk⟩

theorem Above.contains {n m : SyntaxNode} (h : n.Above m) : n.Contains m := by
  obtain ⟨k, hk⟩ := h
  exact ⟨k + 1, hk⟩

/-- A part of a shallow tree is shallow. -/
theorem Shallow.of_contains {root n : SyntaxNode} (h : root.Shallow) (hn : root.Contains n) :
    n.Shallow := by
  obtain ⟨k, hk⟩ := hn
  exact h.of_liesBelow hk

/-- Every level down to a node takes up a node. -/
theorem LiesBelow.add_size_le {root n : SyntaxNode} {k : Nat} (h : LiesBelow root k n) :
    k + n.size ≤ root.size := by
  induction h with
  | root => omega
  | child _ hfield hc ih =>
    have hlt := size_lt_of_mem_childNodes (mem_childNodes.2 ⟨_, _, hfield, hc⟩)
    omega

/-- A tree of few nodes is shallow. -/
theorem shallow_of_size_le {root : SyntaxNode} (h : root.size ≤ maxTreeDepth) : root.Shallow := by
  intro k n hn
  have hle := hn.add_size_le
  omega

/-- The length of a path tells how far below the root it leads. -/
theorem liesBelow_iff_mem_preorder {root n : SyntaxNode} {k : Nat} :
    LiesBelow root k n ↔ ∃ path : Path, (path, n) ∈ root.preorder ∧ path.length = k := by
  rw [← mem_levels_iff, levels_eq_preorder, List.mem_map]
  simp only [Nat.zero_add, Prod.exists, Prod.mk.injEq]
  constructor
  · rintro ⟨path, m, hmem, rfl, hlength⟩
    exact ⟨path, hmem, hlength⟩
  · rintro ⟨path, hmem, hlength⟩
    exact ⟨path, n, hmem, rfl, hlength⟩

/-- **The list of nodes holds exactly what the tree contains.** -/
theorem mem_nodes_iff {root n : SyntaxNode} : n ∈ root.nodes ↔ root.Contains n := by
  rw [nodes, List.mem_map]
  constructor
  · rintro ⟨⟨path, m⟩, hmem, rfl⟩
    exact ⟨path.length, liesBelow_iff_mem_preorder.2 ⟨path, hmem, rfl⟩⟩
  · rintro ⟨k, hk⟩
    obtain ⟨path, hmem, -⟩ := liesBelow_iff_mem_preorder.1 hk
    exact ⟨(path, n), hmem, rfl⟩

theorem mem_nodesOf_iff {root n : SyntaxNode} {kind : String} :
    n ∈ root.nodesOf kind ↔ root.Contains n ∧ n.kind = kind := by
  rw [nodesOf, List.mem_filter, mem_nodes_iff, is_iff]

/-- The conditions that the calls of `require` in a tree require, in recursive order. -/
def requiredConditions (root : SyntaxNode) : List SyntaxNode :=
  (root.nodesOf "FunctionCall").flatMap fun call =>
    if call.isRequireCall then call.firstArgument?.toList else []

/-- The required conditions are the first arguments of the calls to `require`. -/
theorem mem_requiredConditions_iff {root condition : SyntaxNode} :
    condition ∈ root.requiredConditions ↔ ∃ call target, root.Contains call ∧ call.Calls target ∧
      target.IsNamed "require" ∧ call.firstArgument? = some condition := by
  rw [requiredConditions, List.mem_flatMap]
  constructor
  · rintro ⟨call, hcall, hcondition⟩
    split_ifs at hcondition with hrequire
    · obtain ⟨target, htarget, hname⟩ := isCallTo_iff.1 hrequire
      exact ⟨call, target, (mem_nodesOf_iff.1 hcall).1, htarget, hname,
        Option.mem_toList.1 hcondition⟩
    · cases hcondition
  · rintro ⟨call, target, hcontains, htarget, hname, hcondition⟩
    have hrequire : call.isRequireCall = true := isCallTo_iff.2 ⟨target, htarget, hname⟩
    refine ⟨call, mem_nodesOf_iff.2 ⟨hcontains, htarget.kind⟩, ?_⟩
    rw [if_pos hrequire]
    exact Option.mem_toList.2 hcondition

theorem nodes_memberCall (owner member : String) (offset : Nat) :
    (memberCall owner member offset).nodes = [memberCall owner member offset,
      memberOf (identifier owner ⟨offset, 1, some 0⟩) member ⟨offset, 2, some 0⟩,
      identifier owner ⟨offset, 1, some 0⟩] := by
  cbv

end SyntaxNode

/-! ## Visits without a fault -/

/-- Along visits without a fault, what is found at each node is put together. -/
theorem Visit.collect_trace {α : Type} {f : SyntaxNode → Except TreeFault (List α)}
    {g : SyntaxNode → List α} {found : List SyntaxNode} (h : ∀ n ∈ found, f n = .ok (g n)) :
    collect f (trace found none) = .ok (found.flatMap g) := by
  induction found with
  | nil => rfl
  | cons n found ih =>
    obtain ⟨hn, hfound⟩ := List.forall_mem_cons.1 h
    have hcons : trace (n :: found) none = .ok n :: trace found none := rfl
    rw [hcons, collect, hn, ih hfound]
    rfl

/-! ## Searches -/

namespace SyntaxNode.Shallow

variable {root : SyntaxNode} (h : root.Shallow)

include h

theorem length_le : ∀ p ∈ root.preorder, p.1.length ≤ maxTreeDepth := by
  intro p hp
  have hle := h p.1.length p.2 (liesBelow_iff_mem_preorder.2 ⟨p.1, hp, rfl⟩)
  rwa [Nat.zero_add] at hle

/-- A walk through a shallow tree meets every node, and no fault. -/
theorem walk_eq : root.walk = Visit.trace root.nodes none :=
  visits_of_forall h.length_le

theorem walkNodes_eq : Visit.nodes root.walk = .ok root.nodes := by
  rw [h.walk_eq, Visit.nodes_trace]
  rfl

/-- A search in a shallow tree meets every node of the kind, and no fault. -/
theorem find_eq (kind : String) : root.find kind = Visit.trace (root.nodesOf kind) none :=
  (meets_of_forall h.length_le).find kind

theorem collectKind_eq (kind : String) : root.collectKind kind = .ok (root.nodesOf kind) :=
  (meets_of_forall h.length_le).collect rfl kind

/-- **What a rule collects along a search** is what it finds at each node of the kind, in order. -/
theorem collect_find_eq {α : Type} (kind : String) {f : SyntaxNode → Except TreeFault (List α)}
    {g : SyntaxNode → List α} (hf : ∀ n, n.Shallow → f n = .ok (g n)) :
    Visit.collect f (root.find kind) = .ok ((root.nodesOf kind).flatMap g) := by
  rw [h.find_eq]
  refine Visit.collect_trace fun n hn => hf n ?_
  exact h.of_contains (mem_nodesOf_iff.1 hn).1

theorem collect_walk_eq {α : Type} {f : SyntaxNode → Except TreeFault (List α)}
    {g : SyntaxNode → List α} (hf : ∀ n, n.Shallow → f n = .ok (g n)) :
    Visit.collect f root.walk = .ok (root.nodes.flatMap g) := by
  rw [h.walk_eq]
  exact Visit.collect_trace fun n hn => hf n (h.of_contains (mem_nodes_iff.1 hn))

/-- In a shallow tree all the required conditions are found. -/
theorem requireConditions_eq : root.requireConditions = .ok root.requiredConditions :=
  h.collect_find_eq "FunctionCall" fun _ _ => rfl

end SyntaxNode.Shallow

end SolidityScan
