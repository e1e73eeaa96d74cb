/-
# Walks visit every node once

A walk keeps a list of pending nodes.  What comes out of it is the recursive order of the tree: a
node, then all that lies below its first child, then all that lies below its second child, and so
on, where the children are taken in the order of the source.  The order is given here by paths, so
that it can be checked against the tree itself: every path into the tree is in the list, no path is
in it twice, and of any two paths the one that leads to the earlier place comes first.

* `SyntaxNode.preorder` : the nodes of a tree with their paths, in recursive order;
* `SyntaxNode.isPreorder_preorder` : it lists every node once and in source order;
* `Iteration.call_eq` : what the calls of a walk or a search give, one after the other, and after
  its end;
* `SyntaxNode.walk_follows_preorder` : a walk gives the nodes in this order, up to the first that
  lies too deep, and searches by kind select from them.
-/
import Mathlib.Data.List.Permutation
import SolidityScan.Proofs.StableSort
import SolidityScan.Proofs.Tree.Depth
import SolidityScan.Proofs.Tree.Paths

namespace SolidityScan

/-! ## Source order -/

/-- The first child stands before the second: it has the smaller offset, or at the same offset its
field has the smaller name, or in the same field it has the earlier slot. -/
def Entry.Before (a b : Entry) : Prop :=
  a.node.src.offset < b.node.src.offset ∨
    a.node.src.offset = b.node.src.offset ∧
      (a.name < b.name ∨ a.name = b.name ∧ a.step.slot < b.step.slot)

theorem Entry.not_before_self (a : Entry) : ¬ a.Before a := by
  rintro (hlt | ⟨-, hlt | ⟨-, hlt⟩⟩)
  · exact Nat.lt_irrefl _ hlt
  · exact String.lt_irrefl _ hlt
  · exact Nat.lt_irrefl _ hlt

namespace SyntaxNode

/-- The place at the end of the first path comes before that of the second: the one lies above the
other, or where the paths part, the first goes to a child that stands before the other. -/
inductive Precedes : SyntaxNode → Path → Path → Prop where
  | above {n : SyntaxNode} {s : Step} {path : Path} : Precedes n [] (s :: path)
  | beside {n : SyntaxNode} {a b : Entry} {p q : Path} : a ∈ n.entries → b ∈ n.entries →
      a.Before b → Precedes n (a.step :: p) (b.step :: q)
  | within {n : SyntaxNode} {a : Entry} {p q : Path} : a ∈ n.entries → Precedes a.node p q →
      Precedes n (a.step :: p) (a.step :: q)

theorem Precedes.ne {n : SyntaxNode} {p q : Path} (h : n.Precedes p q) : p ≠ q := by
  induction h with
  | above => exact (List.cons_ne_nil _ _).symm
  | beside ha hb hbefore =>
    intro heq
    have hentry := entry_eq_of_step_eq ha hb (List.cons.inj heq).1
    exact Entry.not_before_self _ (hentry ▸ hbefore)
  | within _ _ ih =>
    intro heq
    exact ih (List.cons.inj heq).2

theorem Ordered.entry {n : SyntaxNode} (h : n.Ordered) {e : Entry} (he : e ∈ n.entries) :
    e.node.Ordered := by
  have hstep : n.step? e.step = some e.node := step?_eq_some_iff_mem_entries.2 ⟨e, he, rfl, rfl⟩
  obtain ⟨p, hp, hc⟩ := exists_step?_iff.1 ⟨e.step, hstep⟩
  exact (ordered_iff.1 h).2 p hp e.node hc

/-- Children are listed by the names of their fields, and in one field by their slots. -/
theorem entries_inOrder {n : SyntaxNode} (h : Json.Ascending n.fields) :
    n.entries.Pairwise fun a b =>
      a.name < b.name ∨ a.name = b.name ∧ a.step.slot < b.step.slot := by
  unfold entries
  rw [List.pairwise_flatMap]
  constructor
  · intro f _
    refine (Field.entries_ascending f.2 f.1.1 f.1.2).imp_of_mem ?_
    intro a b ha hb hslot
    have hname : a.name = b.name :=
      (Field.mem_entries_iff.1 ha).2.1.trans (Field.mem_entries_iff.1 hb).2.1.symm
    exact Or.inr ⟨hname, hslot⟩
  · have hfields : (n.fields.zipIdx.map (·.1)).Pairwise fun f g => f.1 < g.1 := by
      rw [List.zipIdx_map_fst]
      exact h
    refine (List.pairwise_map.1 hfields).imp ?_
    intro f g hfg a ha b hb
    rw [(Field.mem_entries_iff.1 ha).2.1, (Field.mem_entries_iff.1 hb).2.1]
    exact Or.inl hfg

/-! ## The recursive order -/

/-- The children in order of their offsets; children at the same offset keep the order of fields and
slots. -/
def arranged (n : SyntaxNode) : List Entry :=
  n.entries.mergeSort fun a b => decide (a.node.src.offset ≤ b.node.src.offset)

theorem mem_arranged {n : SyntaxNode} {e : Entry} : e ∈ n.arranged ↔ e ∈ n.entries :=
  List.mem_mergeSort

theorem map_node_arranged (n : SyntaxNode) : n.arranged.map (·.node) = n.childNodes := by
  unfold arranged childNodes
  rw [← n.map_node_entries]
  exact List.map_mergeSort fun a _ b _ => rfl

theorem arranged_inOrder {n : SyntaxNode} (h : Json.Ascending n.fields) :
    n.arranged.Pairwise Entry.Before := by
  unfold arranged
  refine (StableSort.pairwise_mergeSort_earlier ?_ ?_ (entries_inOrder h)).imp ?_
  · simp only [decide_eq_true_eq]
    omega
  · simp only [Bool.or_eq_true, decide_eq_true_eq]
    omega
  rintro a b ⟨hle, hties⟩
  rw [decide_eq_true_eq] at hle hties
  rcases Nat.lt_or_eq_of_le hle with hlt | heq
  · exact Or.inl hlt
  · exact Or.inr ⟨heq, hties heq.ge⟩

theorem size_lt_of_mem_arranged {n : SyntaxNode} {e : Entry} (h : e ∈ n.arranged) :
    e.node.size < n.size := by
  apply size_lt_of_mem_childNodes
  rw [← map_node_arranged]
  exact List.mem_map_of_mem h

/-- The nodes of a tree with the paths that lead to them: the root, then what lies below each of its
children in turn. -/
def preorder (n : SyntaxNode) : List (Path × SyntaxNode) :=
  ([], n) :: n.arranged.attach.flatMap fun e =>
    (preorder e.1.node).map fun p => (e.1.step :: p.1, p.2)
termination_by n.size
decreasing_by
  exact size_lt_of_mem_arranged e.2

theorem preorder_eq (n : SyntaxNode) :
    n.preorder = ([], n) :: n.arranged.flatMap fun e =>
      e.node.preorder.map fun p => (e.step :: p.1, p.2) := by
  rw [preorder, List.flatMap_subtype]
  · rw [List.unattach_attach]
  · intro e he
    rfl

/-- The list holds every node at the path that leads to it. -/
theorem mem_preorder_iff {root n : SyntaxNode} {path : Path} :
    (path, n) ∈ root.preorder ↔ root.at? path = some n := by
  induction path generalizing root with
  | nil =>
    rw [preorder_eq, List.mem_cons, List.mem_flatMap, at?]
    constructor
    · rintro (heq | ⟨e, -, hmem⟩)
      · rw [(Prod.mk.inj heq).2]
      · obtain ⟨p, -, hp⟩ := List.mem_map.1 hmem
        cases (Prod.mk.inj hp).1
    · intro h
      exact Or.inl (by rw [Option.some.inj h])
  | cons s path ih =>
    rw [preorder_eq, List.mem_cons, List.mem_flatMap, at?_cons_eq_some_iff]
    constructor
    · rintro (heq | ⟨e, he, hmem⟩)
      · cases (Prod.mk.inj heq).1
      · obtain ⟨⟨rest, m⟩, hrest, hp⟩ := List.mem_map.1 hmem
        obtain ⟨hpath, rfl⟩ := Prod.mk.inj hp
        obtain ⟨rfl, rfl⟩ := List.cons.inj hpath
        have hstep := step?_eq_some_iff_mem_entries.2 ⟨e, mem_arranged.1 he, rfl, rfl⟩
        exact ⟨e.node, hstep, ih.1 hrest⟩
    · rintro ⟨c, hstep, hc⟩
      obtain ⟨e, he, rfl, rfl⟩ := step?_eq_some_iff_mem_entries.1 hstep
      exact Or.inr ⟨e, mem_arranged.2 he, List.mem_map.2 ⟨(path, n), ih.2 hc, rfl⟩⟩

/-- Of two paths in the list, the first leads to the earlier place. -/
theorem preorder_inOrder {root : SyntaxNode} (h : root.Ordered) :
    (root.preorder.map (·.1)).Pairwise root.Precedes := by
  induction hsize : root.size using Nat.strongRecOn generalizing root with
  | _ size ih =>
    rw [preorder_eq, List.map_cons, List.pairwise_cons, List.map_flatMap, List.pairwise_flatMap]
    simp only [List.map_map, Function.comp_def, List.mem_flatMap, List.mem_map]
    refine ⟨?_, ?_, ?_⟩
    · rintro path ⟨e, -, p, -, rfl⟩
      exact .above
    -- below one child the paths share their first step
    · intro e he
      have hmem := mem_arranged.1 he
      have hlt := size_lt_of_mem_arranged he
      have hbelow := ih e.node.size (by omega) (h.entry hmem) rfl
      rw [List.pairwise_map] at hbelow ⊢
      exact hbelow.imp fun hpq => .within hmem hpq
    -- below two children the order of these decides
    · refine (arranged_inOrder (ordered_iff.1 h).1).imp_of_mem ?_
      rintro a b ha hb hbefore path ⟨p, -, rfl⟩ path' ⟨q, -, rfl⟩
      exact .beside (mem_arranged.1 ha) (mem_arranged.1 hb) hbefore

/-- The list holds every node of the tree once, with the path that leads to it, and in source
order. -/
structure IsPreorder (root : SyntaxNode) (places : List (Path × SyntaxNode)) : Prop where
  complete : ∀ path n, (path, n) ∈ places ↔ root.at? path = some n
  once : (places.map (·.1)).Nodup
  inOrder : (places.map (·.1)).Pairwise root.Precedes

theorem isPreorder_preorder {root : SyntaxNode} (h : root.Ordered) :
    IsPreorder root root.preorder where
  complete := fun _ _ => mem_preorder_iff
  once := (preorder_inOrder h).imp Precedes.ne
  inOrder := preorder_inOrder h

/-- The recursive order gives every node its depth: the length of its path. -/
theorem levels_eq_preorder (n : SyntaxNode) (depth : Nat) :
    n.levels depth = n.preorder.map fun p => (p.2, depth + p.1.length) := by
  induction hsize : n.size using Nat.strongRecOn generalizing n depth with
  | _ size ih =>
    rw [levels_eq, preorder_eq, List.map_cons, ← map_node_arranged, List.flatMap_map,
      List.map_flatMap]
    congr 1
    refine List.flatMap_congr fun e he => ?_
    have hlt := size_lt_of_mem_arranged he
    rw [ih e.node.size (by omega) e.node (depth + 1) rfl, List.map_map]
    refine List.map_congr_left fun p _ => ?_
    have hdepth : depth + 1 + p.1.length = depth + (e.step :: p.1).length := by
      rw [List.length_cons]
      omega
    simp only [Function.comp_apply, hdepth]

end SyntaxNode

/-! ## Calls one after the other -/

namespace Iteration

variable {σ α : Type} (it : Iteration σ α)

/-- The state after a number of calls; a state that gives nothing stays as it is. -/
def after (s : σ) : Nat → σ
  | 0 => s
  | k + 1 =>
    match it.next? s with
    | none => s
    | some (_, rest) => after rest k

/-- What a call gives, after `k` calls before it. -/
def call (s : σ) (k : Nat) : Option α :=
  (it.next? (it.after s k)).map (·.1)

/-- **Calls give all that there is one by one**, and nothing for good after the last. -/
theorem call_eq (s : σ) (k : Nat) : it.call s k = (it.all s)[k]? := by
  induction k generalizing s with
  | zero =>
    unfold call after
    cases hstep : it.next? s with
    | none => rw [it.all_of_none hstep, List.getElem?_nil, Option.map_none]
    | some step => rw [it.all_of_some hstep, List.getElem?_cons_zero, Option.map_some]
  | succ k ih =>
    unfold call after
    cases hstep : it.next? s with
    | none => rw [it.all_of_none hstep, List.getElem?_nil, hstep, Option.map_none]
    | some step =>
      rw [it.all_of_some hstep, List.getElem?_cons_succ, ← ih step.2]
      rfl

end Iteration

/-- What a call of a walk gives, after `k` calls before it. -/
def Walk.call (w : Walk) (k : Nat) : Option Visit :=
  iteration.call w k

/-- What a call of a search gives, after `k` calls before it. -/
def Search.call (s : Search) (k : Nat) : Option Visit :=
  iteration.call s k

/-! ## What a walk gives -/

namespace Visit

/-- Visits of the nodes one after the other, and then of the fault if there is one. -/
def trace (nodes : List SyntaxNode) (fault : Option TreeFault) : List Visit :=
  nodes.map .ok ++ fault.toList.map .error

theorem upTo_append {limit : Nat} {places : List (SyntaxNode × Nat)}
    (h : ∀ p ∈ places, p.2 ≤ limit) (rest : List (SyntaxNode × Nat)) :
    upTo limit (places ++ rest) = places.map (fun p => .ok p.1) ++ upTo limit rest := by
  induction places with
  | nil => rfl
  | cons p places ih =>
    obtain ⟨hp, hplaces⟩ := List.forall_mem_cons.1 h
    rw [List.cons_append, upTo, if_neg (Nat.not_lt.2 hp), ih hplaces]
    rfl

theorem filter_isOf_trace (kind : String) (nodes : List SyntaxNode) (fault : Option TreeFault) :
    (trace nodes fault).filter (isOf kind) = trace (nodes.filter (·.is kind)) fault := by
  unfold trace
  rw [List.filter_append, List.filter_map]
  congr 1
  cases fault <;> rfl

/-- All of the nodes, or the fault if there is one. -/
def allOr (found : List SyntaxNode) : Option TreeFault → Except TreeFault (List SyntaxNode)
  | none => .ok found
  | some fault => .error fault

theorem nodes_trace (found : List SyntaxNode) (fault : Option TreeFault) :
    nodes (trace found fault) = allOr found fault := by
  induction found with
  | nil => cases fault <;> rfl
  | cons n found ih =>
    have hcons : trace (n :: found) fault = .ok n :: trace found fault := rfl
    rw [hcons, nodes, ih]
    cases fault <;> rfl

end Visit

namespace SyntaxNode

/-- A walk within the limit meets the nodes one after the other, and then the fault if there is one.
So it does call by call, and so do searches for a kind among the nodes of that kind, call by call
and as a whole.  Collecting a kind, which has its own limit, gives all of them or the fault. -/
structure Meets (root : SyntaxNode) (limit : Nat) (nodes : List SyntaxNode)
    (fault : Option TreeFault) : Prop where
  call : ∀ k, (Walk.start root limit).call k = (Visit.trace nodes fault)[k]?
  search : ∀ kind k, (Search.start root kind limit).call k =
    (Visit.trace (nodes.filter (·.is kind)) fault)[k]?
  find : ∀ kind, root.findWithin kind limit = Visit.trace (nodes.filter (·.is kind)) fault
  collect : limit = maxTreeDepth → ∀ kind,
    root.collectKind kind = Visit.allOr (nodes.filter (·.is kind)) fault

theorem meets_of_visits {root : SyntaxNode} {limit : Nat} {nodes : List SyntaxNode}
    {fault : Option TreeFault} (h : (Walk.start root limit).visits = Visit.trace nodes fault) :
    Meets root limit nodes fault := by
  have hfind : ∀ kind,
      root.findWithin kind limit = Visit.trace (nodes.filter (·.is kind)) fault := by
    intro kind
    rw [findWithin_eq, h, Visit.filter_isOf_trace]
  refine ⟨fun k => ?_, fun kind k => ?_, hfind, fun hlimit kind => ?_⟩
  · rw [← h]
    exact Walk.iteration.call_eq _ k
  · rw [← hfind]
    exact Search.iteration.call_eq _ k
  · rw [collectKind, SyntaxNode.find, ← hlimit, hfind, Visit.nodes_trace]

theorem visits_start (root : SyntaxNode) (limit : Nat) :
    (Walk.start root limit).visits =
      Visit.upTo limit (root.preorder.map fun p => (p.2, p.1.length)) := by
  rw [Walk.visits_eq, Walk.start, List.flatMap_singleton, levels_eq_preorder]
  simp only [Nat.zero_add]

/-- If no node lies deeper than the limit, the walk meets all of them and no fault. -/
theorem visits_of_forall {root : SyntaxNode} {limit : Nat}
    (h : ∀ p ∈ root.preorder, p.1.length ≤ limit) :
    (Walk.start root limit).visits = Visit.trace (root.preorder.map (·.2)) none := by
  have hplaces : ∀ p ∈ root.preorder.map fun p => (p.2, p.1.length), p.2 ≤ limit :=
    List.forall_mem_map.2 h
  have hvisits := Visit.upTo_append hplaces []
  rw [List.append_nil] at hvisits
  rw [visits_start, hvisits, Visit.trace, List.map_map, List.map_map]
  rfl

theorem meets_of_forall {root : SyntaxNode} {limit : Nat}
    (h : ∀ p ∈ root.preorder, p.1.length ≤ limit) :
    Meets root limit (root.preorder.map (·.2)) none :=
  meets_of_visits (visits_of_forall h)

theorem meets_of_append {root n : SyntaxNode} {limit : Nat} {path : Path}
    {before after : List (Path × SyntaxNode)}
    (hsplit : root.preorder = before ++ (path, n) :: after)
    (hbefore : ∀ p ∈ before, p.1.length ≤ limit) (hdeep : limit < path.length) :
    Meets root limit (before.map (·.2)) (some (.tooDeepAt limit n.kind n.src)) := by
  apply meets_of_visits
  have hplaces : ∀ p ∈ before.map fun p => (p.2, p.1.length), p.2 ≤ limit :=
    List.forall_mem_map.2 hbefore
  rw [visits_start, hsplit, List.map_append, Visit.upTo_append hplaces, List.map_cons, Visit.upTo,
    if_pos hdeep, Visit.trace, List.map_map, List.map_map]
  rfl

/-- **A walk gives the nodes of a tree in their recursive order.**  The order holds every node once,
each before its children and the children by offset, field name and slot.  If no node lies deeper
than the limit, the walk gives all of it; otherwise it gives what comes before the first node that
lies deeper, then one fault that names this node, and then nothing for good. -/
theorem walk_follows_preorder {root : SyntaxNode} (h : root.Ordered) (limit : Nat) :
    IsPreorder root root.preorder ∧
      ((∀ p ∈ root.preorder, p.1.length ≤ limit) →
        Meets root limit (root.preorder.map (·.2)) none) ∧
      ∀ before path n after, root.preorder = before ++ (path, n) :: after →
        (∀ p ∈ before, p.1.length ≤ limit) → limit < path.length →
        Meets root limit (before.map (·.2)) (some (.tooDeepAt limit n.kind n.src)) :=
  ⟨isPreorder_preorder h, meets_of_forall, fun _ _ _ _ => meets_of_append⟩

/-- A loop whose body was written before its condition, with a call in the body.  The condition and
the bound have the same offset. -/
def loopTree : SyntaxNode :=
  let call := leaf "FunctionCall" ⟨20, 4, some 0⟩
  let body := (leaf "Block" ⟨18, 9, some 0⟩).withField "statements" (.sequence [none, some call])
  let loop := (leaf "WhileStatement" ⟨4, 23, some 0⟩).withField "body" (.child (some body))
  let loop := loop.withField "condition" (.child (some (leaf "Identifier" ⟨11, 2, some 0⟩)))
  loop.withField "bound" (.child (some (leaf "Literal" ⟨11, 2, some 0⟩)))

theorem loopTree_ordered : loopTree.Ordered := by
  have hcall : ∀ c ∈ (Field.sequence [none, some (leaf "FunctionCall" ⟨20, 4, some 0⟩)]).nodes,
      c.Ordered := by
    intro c hc
    rw [List.mem_singleton.1 hc]
    exact ordered_leaf _ _
  refine Ordered.withField (Ordered.withField (Ordered.withField (ordered_leaf _ _) _ ?_) _ ?_) _ ?_
  all_goals
    intro c hc
    rw [List.mem_singleton.1 hc]
  · exact (ordered_leaf _ _).withField _ hcall
  · exact ordered_leaf _ _
  · exact ordered_leaf _ _

theorem walk_follows_preorder_loopTree :
    loopTree.Ordered ∧ IsPreorder loopTree loopTree.preorder ∧
      loopTree.preorder.map (fun p => (p.1, p.2.kind)) =
        [([], "WhileStatement"), ([⟨1, 0⟩], "Literal"), ([⟨2, 0⟩], "Identifier"),
          ([⟨0, 0⟩], "Block"), ([⟨0, 0⟩, ⟨0, 1⟩], "FunctionCall")] ∧
      Meets loopTree 1 ((loopTree.preorder.take 4).map (·.2))
        (some (.tooDeepAt 1 "FunctionCall" ⟨20, 4, some 0⟩)) := by
  obtain ⟨hpreorder, -, hcut⟩ := walk_follows_preorder loopTree_ordered 1
  have hsplit : loopTree.preorder = loopTree.preorder.take 4 ++
      ([⟨0, 0⟩, ⟨0, 1⟩], leaf "FunctionCall" ⟨20, 4, some 0⟩) :: [] := by cbv
  have hdepths : (loopTree.preorder.take 4).all (fun p => p.1.length ≤ 1) = true := by cbv
  refine ⟨loopTree_ordered, hpreorder, by cbv, hcut _ _ _ _ hsplit ?_ (by decide)⟩
  intro p hp
  exact of_decide_eq_true (List.all_eq_true.1 hdepths p hp)

end SyntaxNode

end SolidityScan
