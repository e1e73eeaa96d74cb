/-
# Paths into a tree

A node of a tree is known by the path that leads to it from the root.  Two nodes may have the same
kind, range and fields, but they never have the same path, so it is with paths that one can say that
every node is met once.  A path is a list of steps; a step names a field of a node by its number and
a slot of that field by its own.

* `SyntaxNode.at?` : the node at the end of a path;
* `SyntaxNode.mem_entries_iff` : the children of a node, listed with the steps that lead to them;
* `SyntaxNode.map_node_entries` : the list has the children in the order of fields and slots;
* `SyntaxNode.Ordered` : in the whole tree the names of fields ascend, as adding a field keeps them.
-/
import SolidityScan.Proofs.Json.Fields
import SolidityScan.Proofs.Tree.Preorder

namespace SolidityScan

/-- A step from a node to a child: the number of the field that holds it, and of its slot there. -/
structure Step where
  field : Nat
  slot : Nat
deriving DecidableEq, Repr

/-- The steps from a root to a node below it, first one first. -/
abbrev Path := List Step

/-! ## Following a path -/

/-- The slots of a field: one for a child, whether present or not, and none for a scalar. -/
def Field.slots : Field → List (Option SyntaxNode)
  | child node => [node]
  | sequence slots => slots
  | scalar _ => []

theorem Field.reduceOption_slots (f : Field) : f.slots.filterMap id = f.nodes := by
  cases f with
  | child node => cases node <;> rfl
  | sequence slots => rfl
  | scalar value => rfl

theorem Field.mem_nodes_iff {f : Field} {c : SyntaxNode} :
    c ∈ f.nodes ↔ ∃ j : Nat, f.slots[j]? = some (some c) := by
  rw [← f.reduceOption_slots, List.mem_filterMap]
  constructor
  · rintro ⟨slot, hslot, rfl⟩
    exact List.getElem?_of_mem hslot
  · rintro ⟨j, hj⟩
    exact ⟨some c, List.mem_of_getElem? hj, rfl⟩

namespace SyntaxNode

/-- The child that a step leads to. -/
def step? (n : SyntaxNode) (s : Step) : Option SyntaxNode :=
  n.fields[s.field]?.bind fun f => f.2.slots[s.slot]?.join

/-- The node that a path leads to. -/
def at? : SyntaxNode → Path → Option SyntaxNode
  | n, [] => some n
  | n, s :: path => (n.step? s).bind fun c => c.at? path

theorem step?_eq_some_iff {n c : SyntaxNode} {s : Step} :
    n.step? s = some c ↔
      ∃ name f, n.fields[s.field]? = some (name, f) ∧ f.slots[s.slot]? = some (some c) := by
  unfold step?
  rw [Option.bind_eq_some_iff]
  constructor
  · rintro ⟨⟨name, f⟩, hfield, hslot⟩
    exact ⟨name, f, hfield, Option.join_eq_some_iff.1 hslot⟩
  · rintro ⟨name, f, hfield, hslot⟩
    exact ⟨(name, f), hfield, Option.join_eq_some_iff.2 hslot⟩

/-- Steps lead to what the fields hold. -/
theorem exists_step?_iff {n c : SyntaxNode} :
    (∃ s, n.step? s = some c) ↔ ∃ p ∈ n.fields, c ∈ p.2.nodes := by
  constructor
  · rintro ⟨s, hs⟩
    obtain ⟨name, f, hfield, hslot⟩ := step?_eq_some_iff.1 hs
    exact ⟨(name, f), List.mem_of_getElem? hfield, Field.mem_nodes_iff.2 ⟨s.slot, hslot⟩⟩
  · rintro ⟨⟨name, f⟩, hfield, hc⟩
    obtain ⟨i, hi⟩ := List.getElem?_of_mem hfield
    obtain ⟨j, hj⟩ := Field.mem_nodes_iff.1 hc
    exact ⟨⟨i, j⟩, step?_eq_some_iff.2 ⟨name, f, hi, hj⟩⟩

theorem at?_cons_eq_some_iff {n m : SyntaxNode} {s : Step} {path : Path} :
    n.at? (s :: path) = some m ↔ ∃ c, n.step? s = some c ∧ c.at? path = some m := by
  rw [at?, Option.bind_eq_some_iff]

end SyntaxNode

/-! ## Children with their steps -/

/-- A child of a node, with the step that leads to it and the name of the field that holds it. -/
structure Entry where
  step : Step
  name : String
  node : SyntaxNode

/-- The children that a field holds, where the field has the given number and name. -/
def Field.entries (number : Nat) (name : String) (f : Field) : List Entry :=
  f.slots.zipIdx.filterMap fun slot => slot.1.map fun c => ⟨⟨number, slot.2⟩, name, c⟩

/-- The children of a node, in the order of its fields and of their slots. -/
def SyntaxNode.entries (n : SyntaxNode) : List Entry :=
  n.fields.zipIdx.flatMap fun f => f.1.2.entries f.2 f.1.1

namespace Field

theorem mem_entries_iff {number : Nat} {name : String} {f : Field} {e : Entry} :
    e ∈ f.entries number name ↔
      e.step.field = number ∧ e.name = name ∧ f.slots[e.step.slot]? = some (some e.node) := by
  unfold entries
  rw [List.mem_filterMap]
  constructor
  · rintro ⟨⟨slot, j⟩, hslot, heq⟩
    obtain ⟨c, hc, rfl⟩ := Option.map_eq_some_iff.1 heq
    have hj : f.slots[j]? = some slot := List.mem_zipIdx_iff_getElem?.1 hslot
    refine ⟨rfl, rfl, ?_⟩
    rw [hj]
    exact congrArg some hc
  · rintro ⟨rfl, rfl, hslot⟩
    exact ⟨(some e.node, e.step.slot), List.mem_zipIdx_iff_getElem?.2 hslot, rfl⟩

theorem map_node_entries (number : Nat) (name : String) (f : Field) :
    (f.entries number name).map (·.node) = f.nodes := by
  have hslots : f.slots.zipIdx.map (·.1) = f.slots := List.zipIdx_map_fst 0 _
  unfold entries
  rw [← f.reduceOption_slots, ← hslots, List.map_filterMap, List.filterMap_map, hslots]
  refine List.filterMap_congr fun slot _ => ?_
  cases h : slot.1 <;> simp [h]

/-- The slots of a field are listed from first to last. -/
theorem entries_ascending (number : Nat) (name : String) (f : Field) :
    (f.entries number name).Pairwise fun a b => a.step.slot < b.step.slot := by
  unfold entries
  rw [List.pairwise_filterMap]
  have hslots : f.slots.zipIdx.Pairwise fun a b => a.2 < b.2 := by
    rw [← List.pairwise_map (f := Prod.snd) (R := (· < ·)), List.zipIdx_map_snd]
    exact List.pairwise_lt_range'
  refine hslots.imp ?_
  intro p q hpq a ha b hb
  obtain ⟨c, -, rfl⟩ := Option.map_eq_some_iff.1 ha
  obtain ⟨d, -, rfl⟩ := Option.map_eq_some_iff.1 hb
  exact hpq

end Field

namespace SyntaxNode

/-- The list holds every child with the step that leads to it, and the name of its field. -/
theorem mem_entries_iff {n : SyntaxNode} {e : Entry} :
    e ∈ n.entries ↔
      ∃ f, n.fields[e.step.field]? = some (e.name, f) ∧
        f.slots[e.step.slot]? = some (some e.node) := by
  unfold entries
  rw [List.mem_flatMap]
  constructor
  · rintro ⟨⟨⟨name, f⟩, i⟩, hfield, he⟩
    obtain ⟨hi, hname, hslot⟩ := Field.mem_entries_iff.1 he
    refine ⟨f, ?_, hslot⟩
    rw [hi, hname]
    exact List.mem_zipIdx_iff_getElem?.1 hfield
  · rintro ⟨f, hfield, hslot⟩
    refine ⟨((e.name, f), e.step.field), List.mem_zipIdx_iff_getElem?.2 hfield, ?_⟩
    exact Field.mem_entries_iff.2 ⟨rfl, rfl, hslot⟩

theorem step?_eq_some_iff_mem_entries {n c : SyntaxNode} {s : Step} :
    n.step? s = some c ↔ ∃ e ∈ n.entries, e.step = s ∧ e.node = c := by
  rw [step?_eq_some_iff]
  constructor
  · rintro ⟨name, f, hfield, hslot⟩
    exact ⟨⟨s, name, c⟩, mem_entries_iff.2 ⟨f, hfield, hslot⟩, rfl, rfl⟩
  · rintro ⟨e, he, rfl, rfl⟩
    obtain ⟨f, hfield, hslot⟩ := mem_entries_iff.1 he
    exact ⟨e.name, f, hfield, hslot⟩

/-- A step leads to one child only. -/
theorem entry_eq_of_step_eq {n : SyntaxNode} {a b : Entry} (ha : a ∈ n.entries)
    (hb : b ∈ n.entries) (h : a.step = b.step) : a = b := by
  obtain ⟨f, hf, hc⟩ := mem_entries_iff.1 ha
  obtain ⟨g, hg, hd⟩ := mem_entries_iff.1 hb
  rw [h, hg] at hf
  obtain ⟨hname, rfl⟩ := Prod.mk.inj (Option.some.inj hf)
  rw [h, hd] at hc
  have hnode : b.node = a.node := Option.some.inj (Option.some.inj hc)
  cases a
  cases b
  cases h
  cases hname
  cases hnode
  rfl

theorem map_node_entries (n : SyntaxNode) :
    n.entries.map (·.node) = n.fields.flatMap (·.2.nodes) := by
  have hfields : n.fields.zipIdx.map (·.1) = n.fields := List.zipIdx_map_fst 0 _
  unfold entries
  rw [List.map_flatMap]
  simp only [Field.map_node_entries]
  conv_rhs => rw [← hfields, List.flatMap_map]

/-! ## Fields in order -/

/-- Every node of the tree has its fields in ascending order of their names.  Nodes are defined
together with their fields and the lists of these, so that the type cannot ask for this order; but
to add a field to a node keeps it, and so does reading a tree from a text. -/
def Ordered (root : SyntaxNode) : Prop :=
  ∀ path n, root.at? path = some n → Json.Ascending n.fields

theorem ordered_iff {n : SyntaxNode} :
    n.Ordered ↔ Json.Ascending n.fields ∧ ∀ p ∈ n.fields, ∀ c ∈ p.2.nodes, c.Ordered := by
  constructor
  · intro h
    refine ⟨h [] n rfl, fun p hp c hc path m hm => ?_⟩
    obtain ⟨s, hs⟩ := exists_step?_iff.2 ⟨p, hp, hc⟩
    exact h (s :: path) m (at?_cons_eq_some_iff.2 ⟨c, hs, hm⟩)
  · rintro ⟨hfields, hchildren⟩ path m hm
    cases path with
    | nil =>
      cases hm
      exact hfields
    | cons s path =>
      obtain ⟨c, hs, hm⟩ := at?_cons_eq_some_iff.1 hm
      obtain ⟨p, hp, hc⟩ := exists_step?_iff.1 ⟨s, hs⟩
      exact hchildren p hp c hc path m hm

theorem ordered_leaf (kind : String) (src : SourceRange) : (leaf kind src).Ordered := by
  refine ordered_iff.2 ⟨List.Pairwise.nil, ?_⟩
  intro p hp
  cases hp

/-- A node stays ordered when a field is added that holds ordered nodes. -/
theorem Ordered.withField {n : SyntaxNode} (h : n.Ordered) (name : String) {f : Field}
    (hf : ∀ c ∈ f.nodes, c.Ordered) : (n.withField name f).Ordered := by
  obtain ⟨hfields, hchildren⟩ := ordered_iff.1 h
  refine ordered_iff.2 ⟨Json.insertField_ascending hfields name f, ?_⟩
  intro p hp
  rcases Json.mem_insertField hp with rfl | hp
  · exact hf
  · exact hchildren p hp

end SyntaxNode

end SolidityScan
