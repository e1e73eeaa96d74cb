/-
# Trees that are too deep

A walk ends with a fault exactly when some node lies more levels below the root than the limit
allows.  So does every search that goes through a walk to its end, as long as what it asks of the
nodes on the way has an answer.  A tree that was read from JSON has no such node, because reading
counts the levels in the same way and to the same limit.

* `Explores.succeeds_collect_iff` : collecting along a walk fails only on trees that are too deep;
* `shallow_of_ofJson` : what is read from JSON is never too deep.
-/
import SolidityScan.Proofs.Except
import SolidityScan.Proofs.Tree.Preorder
import SolidityScan.Source.File
import SolidityScan.Tree.Query

namespace SolidityScan

/-! ## Levels and limits -/

namespace SyntaxNode

/-- If the node lies at the given depth, no node of its tree lies deeper than the limit. -/
def FitsAt (limit depth : Nat) (n : SyntaxNode) : Prop :=
  ∀ k m, LiesBelow n k m → depth + k ≤ limit

/-- No node lies further below this one than trees may reach. -/
def Shallow (n : SyntaxNode) : Prop :=
  n.FitsAt maxTreeDepth 0

/-- A tree is too deep exactly if it has a node that lies too deep. -/
theorem not_shallow_iff {n : SyntaxNode} :
    ¬ n.Shallow ↔ ∃ k m, LiesBelow n k m ∧ maxTreeDepth < k := by
  constructor
  · intro h
    by_contra hnone
    refine h fun k m hm => ?_
    rw [Nat.zero_add]
    exact Nat.le_of_not_lt fun hlt => hnone ⟨k, m, hm, hlt⟩
  · rintro ⟨k, m, hm, hlt⟩ h
    have hle := h k m hm
    omega

/-- What lies below a shallow node is shallow. -/
theorem Shallow.of_liesBelow {root n : SyntaxNode} {k : Nat} (h : root.Shallow)
    (hn : LiesBelow root k n) : n.Shallow := by
  intro j m hm
  have hle := h (k + j) m (hn.trans hm)
  omega

/-- A field that is found under a name is one of the fields. -/
theorem mem_fields_of_field? {n : SyntaxNode} {name : String} {field : Field}
    (h : n.field? name = some field) : (name, field) ∈ n.fields := by
  obtain ⟨before, after, hfields, _⟩ := List.lookup_eq_some_iff.1 h
  rw [hfields]
  exact List.mem_append_right before List.mem_cons_self

/-- A child of a shallow node is shallow. -/
theorem Shallow.child? {n c : SyntaxNode} {name : String} (h : n.Shallow)
    (hc : n.child? name = some c) : c.Shallow := by
  unfold SyntaxNode.child? at hc
  split at hc
  · next node hfield =>
    refine h.of_liesBelow (LiesBelow.root.child (mem_fields_of_field? hfield) ?_)
    rw [hc]
    exact List.mem_singleton_self c
  · cases hc

end SyntaxNode

/-! ## Faults of visits -/

namespace Visit

/-- No visit is a fault. -/
def Clean (visits : List Visit) : Prop :=
  ∀ v ∈ visits, Succeeds v

theorem clean_nil : Clean [] := by
  intro v hv
  cases hv

theorem not_clean_error (fault : TreeFault) (rest : List Visit) : ¬ Clean (.error fault :: rest) :=
  fun h => not_succeeds_error fault (h _ List.mem_cons_self)

/-- The visit of a node adds no fault. -/
theorem clean_ok_cons {n : SyntaxNode} {rest : List Visit} :
    Clean (.ok n :: rest) ↔ Clean rest := by
  unfold Clean
  rw [List.forall_mem_cons]
  exact and_iff_right (succeeds_ok n)

/-- Up to a limit there is no fault if no node lies deeper. -/
theorem clean_upTo_iff {limit : Nat} {nodes : List (SyntaxNode × Nat)} :
    Clean (upTo limit nodes) ↔ ∀ p ∈ nodes, p.2 ≤ limit := by
  induction nodes with
  | nil => simp [upTo, clean_nil]
  | cons p rest ih =>
    obtain ⟨n, depth⟩ := p
    rw [upTo, List.forall_mem_cons]
    by_cases hdeep : limit < depth
    · rw [if_pos hdeep]
      refine iff_of_false (not_clean_error _ _) ?_
      rintro ⟨hle, _⟩
      exact absurd hle (Nat.not_le_of_lt hdeep)
    · rw [if_neg hdeep, clean_ok_cons, ih]
      exact (and_iff_right (Nat.le_of_not_lt hdeep)).symm

/-- Up to a limit, only nodes of the list are visited. -/
theorem mem_of_mem_upTo {limit : Nat} {nodes : List (SyntaxNode × Nat)} {n : SyntaxNode}
    (h : .ok n ∈ upTo limit nodes) : ∃ depth, (n, depth) ∈ nodes := by
  induction nodes with
  | nil => cases h
  | cons p rest ih =>
    obtain ⟨m, depth⟩ := p
    rw [upTo] at h
    split at h
    · cases List.mem_singleton.1 h
    · rcases List.mem_cons.1 h with heq | hrest
      · cases heq
        exact ⟨depth, List.mem_cons_self⟩
      · obtain ⟨depth', hmem⟩ := ih hrest
        exact ⟨depth', List.mem_cons_of_mem _ hmem⟩

/-- A filter that lets every fault through keeps the faults. -/
theorem clean_filter_isOf_iff {kind : String} {visits : List Visit} :
    Clean (visits.filter (isOf kind)) ↔ Clean visits := by
  constructor
  · intro h v hv
    -- only visits of nodes are dropped, and these are no faults
    cases v with
    | ok n => exact succeeds_ok n
    | error fault => exact h _ (List.mem_filter.2 ⟨hv, rfl⟩)
  · intro h v hv
    exact h v (List.mem_filter.1 hv).1

/-- Collecting succeeds if there is no fault and every node on the way has an answer. -/
theorem succeeds_collect_iff {α : Type} {f : SyntaxNode → Except TreeFault (List α)}
    {visits : List Visit} :
    Succeeds (collect f visits) ↔ Clean visits ∧ ∀ n, .ok n ∈ visits → Succeeds (f n) := by
  induction visits with
  | nil => simp [collect, clean_nil, succeeds_ok]
  | cons v rest ih =>
    cases v with
    | error fault =>
      refine iff_of_false (not_succeeds_error fault) ?_
      rintro ⟨hclean, _⟩
      exact not_clean_error fault rest hclean
    | ok n =>
      rw [collect, clean_ok_cons]
      constructor
      · intro h
        obtain ⟨found, hfound, h⟩ := succeeds_bind_iff.1 h
        obtain ⟨more, hmore, _⟩ := succeeds_bind_iff.1 h
        obtain ⟨hclean, hrest⟩ := ih.1 ⟨more, hmore⟩
        refine ⟨hclean, fun m hm => ?_⟩
        rcases List.mem_cons.1 hm with heq | hm
        · cases heq
          exact ⟨found, hfound⟩
        · exact hrest m hm
      · rintro ⟨hclean, hall⟩
        refine (hall n List.mem_cons_self).bind fun found => ?_
        refine Succeeds.bind (ih.2 ⟨hclean, fun m hm => ?_⟩) fun more => succeeds_ok _
        exact hall m (List.mem_cons_of_mem _ hm)

/-- Without a fault there are the nodes that were visited. -/
theorem Clean.succeeds_nodes {visits : List Visit} (h : Clean visits) :
    Succeeds (nodes visits) := by
  induction visits with
  | nil => exact succeeds_ok []
  | cons v rest ih =>
    cases v with
    | error fault => exact absurd h (not_clean_error fault rest)
    | ok n => exact (ih (clean_ok_cons.1 h)).bind fun found => succeeds_ok _

/-- Without a fault every test of the nodes has an answer. -/
theorem Clean.succeeds_any {visits : List Visit} (h : Clean visits) (test : SyntaxNode → Bool) :
    Succeeds (any test visits) := by
  induction visits with
  | nil => exact succeeds_ok false
  | cons v rest ih =>
    cases v with
    | error fault => exact absurd h (not_clean_error fault rest)
    | ok n =>
      rw [any]
      split
      · exact succeeds_ok true
      · exact ih (clean_ok_cons.1 h)

end Visit

/-! ## Searching a tree -/

namespace SyntaxNode

/-- A walk meets no fault exactly if no node lies deeper than the limit. -/
theorem clean_visits_iff {root : SyntaxNode} {limit : Nat} :
    Visit.Clean (Walk.start root limit).visits ↔ root.FitsAt limit 0 := by
  have hvisits : (Walk.start root limit).visits = Visit.upTo limit (root.levels 0) := by
    rw [Walk.visits_eq, Walk.start, List.flatMap_singleton]
  rw [hvisits, Visit.clean_upTo_iff]
  constructor
  · intro h k n hn
    rw [Nat.zero_add]
    exact h (n, k) (mem_levels_iff.2 hn)
  · rintro h ⟨n, k⟩ hmem
    have hle := h k n (mem_levels_iff.1 hmem)
    rwa [Nat.zero_add] at hle

/-- A walk meets nothing but nodes of the tree. -/
theorem liesBelow_of_mem_visits {root n : SyntaxNode} {limit : Nat}
    (h : .ok n ∈ (Walk.start root limit).visits) : ∃ k, LiesBelow root k n := by
  rw [Walk.visits_eq, Walk.start, List.flatMap_singleton] at h
  obtain ⟨k, hmem⟩ := Visit.mem_of_mem_upTo h
  exact ⟨k, mem_levels_iff.1 hmem⟩

/-- The visits are of nodes below the root, and meet a fault exactly when the root is not
shallow. -/
structure Explores (root : SyntaxNode) (visits : List Visit) : Prop where
  clean_iff : Visit.Clean visits ↔ root.Shallow
  liesBelow : ∀ n, .ok n ∈ visits → ∃ k, LiesBelow root k n

/-- A walk goes through the whole tree. -/
theorem explores_walk (root : SyntaxNode) : Explores root root.walk where
  clean_iff := clean_visits_iff
  liesBelow := fun _ h => liesBelow_of_mem_visits h

/-- A search for a kind goes through the whole tree as well, whatever it selects. -/
theorem explores_find (root : SyntaxNode) (kind : String) : Explores root (root.find kind) where
  clean_iff := by
    rw [find, findWithin_eq, Visit.clean_filter_isOf_iff]
    exact clean_visits_iff
  liesBelow := fun n h => by
    rw [find, findWithin_eq] at h
    exact liesBelow_of_mem_visits (List.mem_filter.1 h).1

namespace Explores

variable {root : SyntaxNode} {visits : List Visit}

/-- **A search fails exactly on trees that are too deep**, if what it asks of the nodes has an
answer on shallow ones. -/
theorem succeeds_collect_iff {α : Type} (h : Explores root visits)
    {f : SyntaxNode → Except TreeFault (List α)} (hf : ∀ n, n.Shallow → Succeeds (f n)) :
    Succeeds (Visit.collect f visits) ↔ root.Shallow := by
  rw [Visit.succeeds_collect_iff, h.clean_iff]
  refine and_iff_left_of_imp fun hroot n hn => ?_
  obtain ⟨k, hbelow⟩ := h.liesBelow n hn
  exact hf n (hroot.of_liesBelow hbelow)

theorem succeeds_any (h : Explores root visits) (hroot : root.Shallow)
    (test : SyntaxNode → Bool) : Succeeds (Visit.any test visits) :=
  (h.clean_iff.2 hroot).succeeds_any test

theorem succeeds_nodes (h : Explores root visits) (hroot : root.Shallow) :
    Succeeds (Visit.nodes visits) :=
  (h.clean_iff.2 hroot).succeeds_nodes

end Explores

theorem Shallow.succeeds_collectKind {n : SyntaxNode} (h : n.Shallow) (kind : String) :
    Succeeds (n.collectKind kind) :=
  (explores_find n kind).succeeds_nodes h

/-- The conditions that are required in a shallow tree can be collected. -/
theorem Shallow.succeeds_requireConditions {n : SyntaxNode} (h : n.Shallow) :
    Succeeds n.requireConditions :=
  ((explores_find n "FunctionCall").succeeds_collect_iff fun _ _ => succeeds_ok _).2 h

/-! ## Reading a tree -/

/-- A node fits if it is not too deep itself and its children fit one level below. -/
theorem fitsAt_of_children {limit depth : Nat} {n : SyntaxNode} (hn : depth ≤ limit)
    (hc : ∀ p ∈ n.fields, ∀ c ∈ p.2.nodes, c.FitsAt limit (depth + 1)) :
    n.FitsAt limit depth := by
  intro k m hm
  rw [← mem_levels_iff, levels_eq, List.mem_cons, List.mem_flatMap] at hm
  rcases hm with heq | ⟨c, hchild, hm⟩
  · cases heq
    exact hn
  · obtain ⟨j, hk, hbelow⟩ := liesBelow_of_mem_levels hm
    obtain ⟨name, field, hfield, hnode⟩ := mem_childNodes.1 hchild
    have hle := hc (name, field) hfield c hnode j m hbelow
    omega

/-- The head of a node is read only if the node is not too deep. -/
theorem depth_le_of_header {limit depth : Nat} {above : SourceRange} {v : Json}
    {header : String × SourceRange} (h : SyntaxNode.header limit depth above v = .ok header) :
    depth ≤ limit := by
  unfold SyntaxNode.header at h
  by_cases hdeep : limit < depth
  · rw [if_pos hdeep] at h
    cases h
  · exact Nat.le_of_not_lt hdeep

-- Reading recurses through objects, fields and sequences; only a step into a node goes down a
-- level, and each node checks its own level before its fields are read.
mutual

/-- A value that is read as a node gives a tree that keeps to the limit. -/
theorem fitsAt_of_ofJsonAt (limit depth : Nat) (above : SourceRange) :
    ∀ (v : Json) {n : SyntaxNode}, ofJsonAt limit depth above v = .ok n → n.FitsAt limit depth
  | .obj fields, n, h => by
    rw [ofJsonAt] at h
    obtain ⟨⟨kind, src⟩, hheader, h⟩ := bind_eq_ok.1 h
    obtain ⟨read, hread, h⟩ := bind_eq_ok.1 h
    cases h
    exact fitsAt_of_children (depth_le_of_header hheader)
      (fitsAt_of_fieldsOfJson limit depth src fields hread)
  | .null, _, h | .bool _, _, h | .num _, _, h | .str _, _, h | .arr _, _, h => by
    simp [ofJsonAt] at h

/-- What is read from the fields of a node keeps to the limit, one level below it. -/
theorem fitsAt_of_fieldsOfJson (limit depth : Nat) (src : SourceRange) :
    ∀ (fields : List (String × Json)) {read : List (String × Field)},
      fieldsOfJson limit depth src fields = .ok read →
      ∀ p ∈ read, ∀ c ∈ p.2.nodes, c.FitsAt limit (depth + 1)
  | [], read, h => by
    rw [fieldsOfJson] at h
    cases h
    intro p hp
    cases hp
  | (name, v) :: rest, read, h => by
    rw [fieldsOfJson] at h
    split at h
    · exact fitsAt_of_fieldsOfJson limit depth src rest h
    · split at h
      · obtain ⟨node, hnode, h⟩ := bind_eq_ok.1 h
        obtain ⟨more, hmore, h⟩ := bind_eq_ok.1 h
        cases h
        refine List.forall_mem_cons.2 ⟨?_, fitsAt_of_fieldsOfJson limit depth src rest hmore⟩
        intro c hc
        rw [List.mem_singleton.1 hc]
        exact fitsAt_of_ofJsonAt limit (depth + 1) src v hnode
      · obtain ⟨field, hfield, h⟩ := bind_eq_ok.1 h
        obtain ⟨more, hmore, h⟩ := bind_eq_ok.1 h
        cases h
        exact List.forall_mem_cons.2 ⟨fitsAt_of_fieldOfJson limit depth src v hfield,
          fitsAt_of_fieldsOfJson limit depth src rest hmore⟩

theorem fitsAt_of_fieldOfJson (limit depth : Nat) (src : SourceRange) :
    ∀ (v : Json) {field : Field}, fieldOfJson limit depth src v = .ok field →
      ∀ c ∈ field.nodes, c.FitsAt limit (depth + 1)
  | .arr items, field, h => by
    rw [fieldOfJson] at h
    split at h
    · obtain ⟨slots, hslots, h⟩ := bind_eq_ok.1 h
      cases h
      exact fitsAt_of_slotsOfJson limit depth src items hslots
    · cases h
      intro c hc
      cases hc
  | .null, _, h | .bool _, _, h | .num _, _, h | .str _, _, h | .obj _, _, h => by
    simp only [fieldOfJson, Except.ok.injEq] at h
    subst h
    intro c hc
    cases hc

theorem fitsAt_of_slotsOfJson (limit depth : Nat) (src : SourceRange) :
    ∀ (items : List Json) {slots : List (Option SyntaxNode)},
      slotsOfJson limit depth src items = .ok slots →
      ∀ c ∈ slots.filterMap id, c.FitsAt limit (depth + 1)
  | [], slots, h => by
    rw [slotsOfJson] at h
    cases h
    intro c hc
    cases hc
  | v :: rest, slots, h => by
    rw [slotsOfJson] at h
    split at h
    · obtain ⟨more, hmore, h⟩ := bind_eq_ok.1 h
      cases h
      rw [List.filterMap_cons_none rfl]
      exact fitsAt_of_slotsOfJson limit depth src rest hmore
    · obtain ⟨node, hnode, h⟩ := bind_eq_ok.1 h
      obtain ⟨more, hmore, h⟩ := bind_eq_ok.1 h
      cases h
      exact List.forall_mem_cons.2 ⟨fitsAt_of_ofJsonAt limit (depth + 1) src v hnode,
        fitsAt_of_slotsOfJson limit depth src rest hmore⟩

end

/-- **A tree that was read within the limit is shallow.** -/
theorem shallow_of_ofJson {v : Json} {root : SyntaxNode}
    (h : ofJson maxTreeDepth v = .ok root) : root.Shallow := by
  unfold ofJson at h
  split at h
  · exact fitsAt_of_ofJsonAt maxTreeDepth 0 {} v h
  · cases h

end SyntaxNode

/-! ## Files with trees -/

namespace SourceFile

variable {f : SourceFile} {v : Json} {text : String} {root : SyntaxNode}

/-- A file has the tree of a value if the value can be read. -/
theorem tree?_withTreeJson_eq_some_iff :
    (f.withTreeJson v).tree? = some root ↔
      SyntaxNode.ofJson maxTreeDepth (treeValue v) = .ok root := by
  unfold withTreeJson
  cases SyntaxNode.ofJson maxTreeDepth (treeValue v) with
  | ok read => simp [withTreeResult, withTree, tree?]
  | error fault => simp [withTreeResult, tree?]

/-- A file has the tree of a text if the text has a value, and the value can be read. -/
theorem tree?_withTreeText_eq_some_iff :
    (f.withTreeText text).tree? = some root ↔ ∃ v, parseTreeJson text = .ok v ∧
      SyntaxNode.ofJson maxTreeDepth (treeValue v) = .ok root := by
  unfold withTreeText
  cases parseTreeJson text with
  | ok v => simp [tree?_withTreeJson_eq_some_iff]
  | error fault => simp [tree?]

theorem shallow_of_withTreeJson (h : (f.withTreeJson v).tree? = some root) : root.Shallow :=
  SyntaxNode.shallow_of_ofJson (tree?_withTreeJson_eq_some_iff.1 h)

/-- **The tree of a file that was read from a text is shallow.** -/
theorem shallow_of_withTreeText (h : (f.withTreeText text).tree? = some root) : root.Shallow := by
  obtain ⟨v, -, hread⟩ := tree?_withTreeText_eq_some_iff.1 h
  exact SyntaxNode.shallow_of_ofJson hread

end SourceFile

end SolidityScan
