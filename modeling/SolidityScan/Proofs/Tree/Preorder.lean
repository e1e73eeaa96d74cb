/-
# The nodes of a tree

The nodes of a tree are described in two ways: by how many levels they lie below the root, and as
the list of all nodes with their depths, each node before its children and the children in source
order.  A walk, which keeps a list of pending nodes, visits that list from left to right up to the
first node that lies too deep.

* `LiesBelow` : a node lies a number of levels below a root;
* `mem_levels_iff` : the list holds these nodes with these depths, and no others;
* `Walk.visits_eq` : a walk visits the list up to the first node that lies too deep;
* `Search.visits_eq` : a search selects from the visits of a walk.
-/
import Mathlib.Data.List.Basic
import SolidityScan.Tree.Walk

namespace SolidityScan

namespace SyntaxNode

/-! ## Below a root -/

/-- The node lies the given number of levels below the root. -/
inductive LiesBelow (root : SyntaxNode) : Nat → SyntaxNode → Prop where
  | root : LiesBelow root 0 root
  | child {k : Nat} {n c : SyntaxNode} {name : String} {field : Field} : LiesBelow root k n →
      (name, field) ∈ n.fields → c ∈ field.nodes → LiesBelow root (k + 1) c

/-- The children of a node are what its fields hold. -/
theorem mem_childNodes {n c : SyntaxNode} :
    c ∈ n.childNodes ↔ ∃ name field, (name, field) ∈ n.fields ∧ c ∈ field.nodes := by
  unfold childNodes
  rw [List.mem_mergeSort, List.mem_flatMap]
  constructor
  · rintro ⟨⟨name, field⟩, hfield, hc⟩
    exact ⟨name, field, hfield, hc⟩
  · rintro ⟨name, field, hfield, hc⟩
    exact ⟨(name, field), hfield, hc⟩

namespace LiesBelow

theorem of_mem_childNodes {root n c : SyntaxNode} {k : Nat} (h : LiesBelow root k n)
    (hc : c ∈ n.childNodes) : LiesBelow root (k + 1) c := by
  obtain ⟨name, field, hfield, hc⟩ := mem_childNodes.1 hc
  exact h.child hfield hc

/-- Levels add up. -/
theorem trans {root n m : SyntaxNode} {k j : Nat} (hn : LiesBelow root k n)
    (hm : LiesBelow n j m) : LiesBelow root (k + j) m := by
  induction hm with
  | root => exact hn
  | child _ hfield hc ih => exact ih.child hfield hc

end LiesBelow

theorem size_le_sizeOfAll {c : SyntaxNode} {ns : List SyntaxNode} (h : c ∈ ns) :
    c.size ≤ sizeOfAll ns := by
  obtain ⟨before, after, rfl⟩ := List.append_of_mem h
  rw [sizeOfAll_append, sizeOfAll]
  omega

/-- A child is a smaller tree. -/
theorem size_lt_of_mem_childNodes {n c : SyntaxNode} (h : c ∈ n.childNodes) :
    c.size < n.size := by
  have hle := size_le_sizeOfAll h
  have hsize := n.size_eq
  omega

/-! ## All nodes in order -/

/-- The nodes of a tree with their depths, each before its children; the root has the given
depth. -/
def levels (depth : Nat) (n : SyntaxNode) : List (SyntaxNode × Nat) :=
  (n, depth) :: n.childNodes.attach.flatMap fun c => levels (depth + 1) c.1
termination_by n.size
decreasing_by
  exact size_lt_of_mem_childNodes c.2

theorem levels_eq (depth : Nat) (n : SyntaxNode) :
    n.levels depth = (n, depth) :: n.childNodes.flatMap (levels (depth + 1)) := by
  rw [levels, List.flatMap_subtype]
  · rw [List.unattach_attach]
  · intro c hc
    rfl

/-- What the list holds lies below the root, as deep as it says. -/
theorem liesBelow_of_mem_levels {root n : SyntaxNode} {depth k : Nat}
    (h : (n, k) ∈ root.levels depth) : ∃ j, k = depth + j ∧ LiesBelow root j n := by
  induction hsize : root.size using Nat.strongRecOn generalizing root depth with
  | _ size ih =>
    rw [levels_eq, List.mem_cons, List.mem_flatMap] at h
    rcases h with heq | ⟨c, hc, hn⟩
    · cases heq
      exact ⟨0, rfl, .root⟩
    · have hlt := size_lt_of_mem_childNodes hc
      -- one level down to the child, and `j` levels from there
      obtain ⟨j, hk, hj⟩ := ih c.size (by omega) hn rfl
      refine ⟨1 + j, by omega, ?_⟩
      exact (LiesBelow.root.of_mem_childNodes hc).trans hj

/-- With a node, the list holds its children one level deeper. -/
theorem mem_levels_of_mem_childNodes {root n c : SyntaxNode} {depth k : Nat}
    (h : (n, k) ∈ root.levels depth) (hc : c ∈ n.childNodes) :
    (c, k + 1) ∈ root.levels depth := by
  induction hsize : root.size using Nat.strongRecOn generalizing root depth with
  | _ size ih =>
    rw [levels_eq, List.mem_cons, List.mem_flatMap] at h ⊢
    rcases h with heq | ⟨m, hm, hn⟩
    · cases heq
      refine Or.inr ⟨c, hc, ?_⟩
      rw [levels_eq]
      exact List.mem_cons_self
    · have hlt := size_lt_of_mem_childNodes hm
      exact Or.inr ⟨m, hm, ih m.size (by omega) hn rfl⟩

/-- The list holds exactly the nodes below the root, as deep as they lie. -/
theorem mem_levels_iff {root n : SyntaxNode} {k : Nat} :
    (n, k) ∈ root.levels 0 ↔ LiesBelow root k n := by
  constructor
  · intro h
    obtain ⟨j, hk, hj⟩ := liesBelow_of_mem_levels h
    rw [hk, Nat.zero_add]
    exact hj
  · intro h
    induction h with
    | root =>
      rw [levels_eq]
      exact List.mem_cons_self
    | child _ hfield hc ih =>
      exact mem_levels_of_mem_childNodes ih (mem_childNodes.2 ⟨_, _, hfield, hc⟩)

end SyntaxNode

/-! ## Walks -/

/-- The visits of nodes with the given depths, which end with a fault at the first that lies too
deep. -/
def Visit.upTo (limit : Nat) : List (SyntaxNode × Nat) → List Visit
  | [] => []
  | (n, depth) :: rest =>
    if limit < depth then [.error (.tooDeepAt limit n.kind n.src)]
    else .ok n :: upTo limit rest

namespace Walk

theorem visits_of_none {w : Walk} (h : w.next? = none) : w.visits = [] :=
  iteration.all_of_none h

theorem visits_of_some {w after : Walk} {visit : Visit} (h : w.next? = some (visit, after)) :
    w.visits = visit :: after.visits :=
  iteration.all_of_some h

/-- **A walk visits the nodes of the pending trees in order**, up to the first that lies too
deep. -/
theorem visits_eq (w : Walk) :
    w.visits = Visit.upTo w.maxDepth (w.pending.flatMap fun p => p.1.levels p.2) := by
  -- on the number of nodes left: a visit puts the children of a node in its place
  induction hload : w.load using Nat.strongRecOn generalizing w with
  | _ load ih =>
    cases hstep : w.next? with
    | none =>
      rw [visits_of_none hstep]
      unfold next? at hstep
      split at hstep
      · next hpending =>
        rw [hpending]
        rfl
      · split at hstep <;> cases hstep
    | some step =>
      obtain ⟨visit, after⟩ := step
      rw [visits_of_some hstep, ih after.load (hload ▸ load_lt_of_next? hstep) after rfl]
      unfold next? at hstep
      split at hstep
      · cases hstep
      · next node depth rest hpending =>
        rw [hpending, List.flatMap_cons, SyntaxNode.levels_eq, List.cons_append, Visit.upTo]
        split at hstep
        · next hdeep =>
          cases hstep
          rw [if_pos hdeep]
          rfl
        · next hdeep =>
          cases hstep
          rw [if_neg hdeep, List.flatMap_append, List.flatMap_map]

end Walk

/-! ## Searches -/

namespace Search

/-- What a search gives does not depend on the visits that it passes over. -/
theorem visits_congr {s t : Search} (h : s.next? = t.next?) : s.visits = t.visits := by
  have hnext : iteration.next? s = iteration.next? t := h
  unfold visits
  cases hstep : iteration.next? t with
  | none => rw [iteration.all_of_none hstep, iteration.all_of_none (hnext.trans hstep)]
  | some step => rw [iteration.all_of_some hstep, iteration.all_of_some (hnext.trans hstep)]

theorem next?_of_none {s : Search} (h : s.walk.next? = none) : s.next? = none := by
  rw [next?]
  split
  · rfl
  · next hsome => cases h.symm.trans hsome

/-- A search stops at the next visit of its walk, or goes on from there. -/
theorem next?_of_some {s : Search} {visit : Visit} {after : Walk}
    (h : s.walk.next? = some (visit, after)) :
    s.next? = if visit.isOf s.kind then some (visit, { s with walk := after })
      else next? { s with walk := after } := by
  conv_lhs => rw [next?]
  split
  · next hnone => cases h.symm.trans hnone
  · next hsome =>
    cases h.symm.trans hsome
    rfl

/-- **A search selects from the visits of its walk** those of the kind, and the fault. -/
theorem visits_eq (s : Search) : s.visits = s.walk.visits.filter (Visit.isOf s.kind) := by
  -- on the number of nodes left, as the walk goes on
  induction hload : s.walk.load using Nat.strongRecOn generalizing s with
  | _ load ih =>
    cases hstep : s.walk.next? with
    | none =>
      rw [Walk.visits_of_none hstep]
      exact iteration.all_of_none (next?_of_none hstep)
    | some step =>
      obtain ⟨visit, after⟩ := step
      have hrest := ih after.load (hload ▸ Walk.load_lt_of_next? hstep) { s with walk := after } rfl
      have hnext := next?_of_some hstep
      rw [Walk.visits_of_some hstep, List.filter_cons, ← hrest]
      split_ifs at hnext ⊢ with hkind
      · exact iteration.all_of_some hnext
      · exact visits_congr hnext

end Search

/-- A search selects from a walk. -/
theorem SyntaxNode.findWithin_eq (root : SyntaxNode) (kind : String) (limit : Nat) :
    root.findWithin kind limit = (Walk.start root limit).visits.filter (Visit.isOf kind) :=
  Search.visits_eq (.start root kind limit)

end SolidityScan
