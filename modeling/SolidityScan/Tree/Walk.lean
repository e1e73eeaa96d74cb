/-
# Walking a tree

A walk visits the nodes of a tree from a list of pending nodes, each before its children and the
children in source order.  It carries the depth of every pending node and ends with a fault at the
first node that lies too deep.  A search goes on with a walk until it meets a node of a certain kind
or the fault.
-/
import SolidityScan.Error
import SolidityScan.Tree.Basic
import SolidityScan.Tree.Intake

namespace SolidityScan

/-! ## Going on step by step -/

/-- A way to go on step by step: what a state gives next, with the state after it, which has less
left to give. -/
structure Iteration (σ α : Type) where
  next? : σ → Option (α × σ)
  load : σ → Nat
  load_lt : ∀ {s after : σ} {a : α}, next? s = some (a, after) → load after < load s

namespace Iteration

variable {σ α : Type} (it : Iteration σ α)

/-- All that a state gives, in order. -/
def all (s : σ) : List α :=
  match _step : it.next? s with
  | none => []
  | some (a, after) => a :: all after
termination_by it.load s
decreasing_by
  exact it.load_lt _step

theorem all_of_none {s : σ} (h : it.next? s = none) : it.all s = [] := by
  unfold all
  split
  · rfl
  · next hsome =>
    rw [h] at hsome
    cases hsome

theorem all_of_some {s after : σ} {a : α} (h : it.next? s = some (a, after)) :
    it.all s = a :: it.all after := by
  conv => lhs; unfold all
  split
  · next hnone =>
    rw [h] at hnone
    cases hnone
  · next hsome =>
    rw [h] at hsome
    cases hsome
    rfl

end Iteration

/-! ## Walks -/

/-- What a walk meets next: a node, or the fault that ends it. -/
abbrev Visit := Except TreeFault SyntaxNode

/-- A walk under way: the nodes still to visit with their depths, next one first. -/
structure Walk where
  pending : List (SyntaxNode × Nat)
  maxDepth : Nat

namespace Walk

/-- The walk that starts at a root. -/
def start (root : SyntaxNode) (maxDepth : Nat) : Walk :=
  { pending := [(root, 0)], maxDepth }

/-- The next visit, and the walk after it.  After a fault nothing is pending. -/
def next? (w : Walk) : Option (Visit × Walk) :=
  match w.pending with
  | [] => none
  | (node, depth) :: rest =>
    if w.maxDepth < depth then
      some (.error (.tooDeepAt w.maxDepth node.kind node.src), { w with pending := [] })
    else
      let children := node.childNodes.map fun child => (child, depth + 1)
      some (.ok node, { w with pending := children ++ rest })

/-- The number of nodes that the pending trees have together. -/
def load (w : Walk) : Nat :=
  SyntaxNode.sizeOfAll (w.pending.map (·.1))

/-- Each visit leaves fewer nodes pending. -/
theorem load_lt_of_next? {w after : Walk} {visit : Visit} (h : w.next? = some (visit, after)) :
    after.load < w.load := by
  unfold next? at h
  split at h
  · simp at h
  · next node depth rest hp =>
    have hsize := node.size_eq
    split at h
    · cases h
      simp only [load, hp, SyntaxNode.sizeOfAll, List.map_nil, List.map_cons]
      omega
    · cases h
      simp only [load, hp, SyntaxNode.sizeOfAll, SyntaxNode.sizeOfAll_append, List.map_append,
        List.map_map, List.map_cons, Function.comp_def, List.map_id_fun', id]
      omega

/-- A walk goes on visit by visit. -/
def iteration : Iteration Walk Visit where
  next? := next?
  load := load
  load_lt := load_lt_of_next?

/-- All visits of a walk, in order. -/
def visits (w : Walk) : List Visit :=
  iteration.all w

end Walk

/-! ## Searches for a kind -/

/-- The visit is a fault or meets a node of the given kind. -/
def Visit.isOf (kind : String) : Visit → Bool
  | .ok node => node.is kind
  | .error _ => true

/-- A search under way: a walk, and the kind of node that is searched for. -/
structure Search where
  walk : Walk
  kind : String

namespace Search

/-- The search that starts at a root. -/
def start (root : SyntaxNode) (kind : String) (maxDepth : Nat) : Search :=
  { walk := .start root maxDepth, kind }

/-- The next visit that is a fault or meets a node of the kind, and the search after it.  Visits of
other nodes are passed over. -/
def next? (s : Search) : Option (Visit × Search) :=
  match _step : s.walk.next? with
  | none => none
  | some (visit, after) =>
    if visit.isOf s.kind then some (visit, { s with walk := after })
    else next? { s with walk := after }
termination_by s.walk.load
decreasing_by
  exact Walk.load_lt_of_next? _step

/-- Each visit leaves fewer nodes pending, and so do those passed over. -/
theorem load_lt_of_next? {s after : Search} {visit : Visit} (h : s.next? = some (visit, after)) :
    after.walk.load < s.walk.load := by
  fun_induction next? s with
  | case1 => cases h
  | case2 s met walk hstep _ =>
    cases h
    exact Walk.load_lt_of_next? hstep
  | case3 s met walk hstep _ ih => exact Nat.lt_trans (ih h) (Walk.load_lt_of_next? hstep)

/-- A search goes on visit by visit. -/
def iteration : Iteration Search Visit where
  next? := next?
  load s := s.walk.load
  load_lt := load_lt_of_next?

/-- All visits of a search, in order. -/
def visits (s : Search) : List Visit :=
  iteration.all s

end Search

/-! ## What is made of visits -/

namespace Visit

/-- The nodes visited, if no visit is a fault. -/
def nodes : List Visit → Except TreeFault (List SyntaxNode)
  | [] => .ok []
  | .error e :: _ => .error e
  | .ok node :: rest => do return node :: (← nodes rest)

/-- Whether some node satisfies the test; visits after the first such node do not matter. -/
def any (test : SyntaxNode → Bool) : List Visit → Except TreeFault Bool
  | [] => .ok false
  | .error e :: _ => .error e
  | .ok node :: rest => if test node then .ok true else any test rest

/-- What `f` finds at each node, joined in the order of visits. -/
def collect {α : Type} (f : SyntaxNode → Except TreeFault (List α)) :
    List Visit → Except TreeFault (List α)
  | [] => .ok []
  | .error e :: _ => .error e
  | .ok node :: rest => do
    let found ← f node
    return found ++ (← collect f rest)

end Visit

namespace SyntaxNode

/-- The visits of a walk from a node within the depth limit of trees. -/
def walk (root : SyntaxNode) : List Visit :=
  (Walk.start root maxTreeDepth).visits

/-- The visits that meet nodes of the given kind within the given depth, and the fault if there
is one. -/
def findWithin (root : SyntaxNode) (kind : String) (maxDepth : Nat) : List Visit :=
  (Search.start root kind maxDepth).visits

/-- The visits that meet nodes of the given kind. -/
def find (root : SyntaxNode) (kind : String) : List Visit :=
  root.findWithin kind maxTreeDepth

/-- The nodes of the given kind, if no node lies too deep. -/
def collectKind (root : SyntaxNode) (kind : String) : Except TreeFault (List SyntaxNode) :=
  Visit.nodes (root.find kind)

end SyntaxNode

end SolidityScan
