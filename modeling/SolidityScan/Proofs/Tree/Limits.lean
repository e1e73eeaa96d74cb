/-
# Reading and walking agree on depth

A tree is read from JSON under a limit on its depth, and it is walked under a limit.  The two count
in different ways: reading recurses through objects and arrays and tells every node how deep it
lies, while a walk keeps the depth of each pending node.  They draw the line at the same place all
the same.  A value that can be read under some limit can be read under any other exactly if a walk
under that other limit meets no fault, and what is read is the same tree.

* `Capped` : a computation that a limit cuts off, or leaves as it is;
* `capped_ofJsonAt` : reading a node is cut off exactly if the node does not fit.
-/
import SolidityScan.Proofs.Tree.Depth

namespace SolidityScan

/-! ## Computations under a limit -/

/-- Under the limit the computation gives `a` if that fits, and otherwise fails because something
lies too deep. -/
def Capped {α : Type} (limit : Nat) (fits : Prop) (x : Except TreeFault α) (a : α) : Prop :=
  fits ∧ x = .ok a ∨ ¬ fits ∧ x = .error (.tooDeep limit)

namespace Capped

variable {α β : Type} {limit : Nat} {p q : Prop} {x : Except TreeFault α} {a : α}

theorem of_ok (hp : p) (hx : x = .ok a) : Capped limit p x a :=
  Or.inl ⟨hp, hx⟩

theorem of_iff (h : Capped limit p x a) (hpq : q ↔ p) : Capped limit q x a := by
  unfold Capped
  rwa [hpq]

/-- One computation after another is cut off where the first of them is. -/
theorem bind {f : α → Except TreeFault β} {b : β} (hx : Capped limit p x a)
    (hf : Capped limit q (f a) b) : Capped limit (p ∧ q) (x >>= f) b := by
  rcases hx with ⟨hp, rfl⟩ | ⟨hp, rfl⟩
  · rcases hf with ⟨hq, hok⟩ | ⟨hq, herror⟩
    · exact Or.inl ⟨⟨hp, hq⟩, hok⟩
    · exact Or.inr ⟨fun h => hq h.2, herror⟩
  · exact Or.inr ⟨fun h => hp h.1, rfl⟩

theorem map (hx : Capped limit p x a) (f : α → β) :
    Capped limit p (x >>= fun a => .ok (f a)) (f a) := by
  have hbind : Capped limit (p ∧ True) (x >>= fun a => .ok (f a)) (f a) :=
    hx.bind (of_ok trivial rfl)
  exact hbind.of_iff (and_iff_left trivial).symm

end Capped

namespace SyntaxNode

/-! ## Where a node fits -/

/-- If a node keeps to the limit, so do its children, one level deeper. -/
theorem FitsAt.child {limit depth : Nat} {n c : SyntaxNode} (h : n.FitsAt limit depth)
    {name : String} {field : Field} (hfield : (name, field) ∈ n.fields) (hc : c ∈ field.nodes) :
    c.FitsAt limit (depth + 1) := by
  intro k m hm
  have hle := h (1 + k) m ((LiesBelow.root.child hfield hc).trans hm)
  omega

/-- A node fits exactly if it is not too deep itself and its children fit one level below. -/
theorem fitsAt_iff {limit depth : Nat} {n : SyntaxNode} :
    n.FitsAt limit depth ↔
      depth ≤ limit ∧ ∀ p ∈ n.fields, ∀ c ∈ p.2.nodes, c.FitsAt limit (depth + 1) := by
  constructor
  · intro h
    exact ⟨h 0 n .root, fun p hp c hc => h.child hp hc⟩
  · rintro ⟨hdepth, hchildren⟩
    exact fitsAt_of_children hdepth hchildren

/-! ## Reading under another limit -/

/-- The kind and the range of a node do not depend on the limit. -/
theorem capped_header {first limit depth : Nat} {above : SourceRange} {v : Json}
    {result : String × SourceRange} (h : header first depth above v = .ok result) :
    Capped limit (depth ≤ limit) (header limit depth above v) result := by
  unfold header at h ⊢
  rw [if_neg (Nat.not_lt.2 (depth_le_of_header h))] at h
  by_cases hdeep : limit < depth
  · rw [if_pos hdeep]
    exact Or.inr ⟨Nat.not_le.2 hdeep, rfl⟩
  · rw [if_neg hdeep]
    exact Capped.of_ok (Nat.not_lt.1 hdeep) h

-- The recursion is that of reading.  Fields and slots have no depth of their own: they fit if the
-- nodes under them do, one level below the node that is read.
mutual

/-- A value that can be read as a node under some limit is read as the same node under another, if
the node keeps to it. -/
theorem capped_ofJsonAt (first limit depth : Nat) (above : SourceRange) :
    ∀ (v : Json) {n : SyntaxNode}, ofJsonAt first depth above v = .ok n →
      Capped limit (n.FitsAt limit depth) (ofJsonAt limit depth above v) n
  | .obj fields, n, h => by
    rw [ofJsonAt] at h ⊢
    obtain ⟨⟨kind, src⟩, hheader, h⟩ := bind_eq_ok.1 h
    obtain ⟨read, hread, h⟩ := bind_eq_ok.1 h
    cases h
    have hfields := capped_fieldsOfJson first limit depth src fields hread
    exact ((capped_header hheader).bind (hfields.map _)).of_iff fitsAt_iff
  | .null, _, h | .bool _, _, h | .num _, _, h | .str _, _, h | .arr _, _, h => by
    simp [ofJsonAt] at h

theorem capped_fieldsOfJson (first limit depth : Nat) (src : SourceRange) :
    ∀ (fields : List (String × Json)) {read : List (String × Field)},
      fieldsOfJson first depth src fields = .ok read →
      Capped limit (∀ p ∈ read, ∀ c ∈ p.2.nodes, c.FitsAt limit (depth + 1))
        (fieldsOfJson limit depth src fields) read
  | [], read, h => by
    rw [fieldsOfJson] at h ⊢
    cases h
    refine Capped.of_ok ?_ rfl
    intro p hp
    cases hp
  | (name, v) :: rest, read, h => by
    rw [fieldsOfJson] at h ⊢
    by_cases hkey : name = kindKey ∨ name = rangeKey
    · rw [if_pos hkey] at h ⊢
      exact capped_fieldsOfJson first limit depth src rest h
    · rw [if_neg hkey] at h ⊢
      by_cases hnode : v.isNode = true
      · rw [if_pos hnode] at h ⊢
        obtain ⟨node, hread, h⟩ := bind_eq_ok.1 h
        obtain ⟨more, hmore, h⟩ := bind_eq_ok.1 h
        cases h
        have hone := capped_ofJsonAt first limit (depth + 1) src v hread
        have hrest := capped_fieldsOfJson first limit depth src rest hmore
        refine (hone.bind (hrest.map _)).of_iff ?_
        rw [List.forall_mem_cons]
        simp only [Field.nodes, Option.toList_some, List.mem_singleton, forall_eq]
      · rw [if_neg hnode] at h ⊢
        obtain ⟨field, hread, h⟩ := bind_eq_ok.1 h
        obtain ⟨more, hmore, h⟩ := bind_eq_ok.1 h
        cases h
        have hone := capped_fieldOfJson first limit depth src v hread
        have hrest := capped_fieldsOfJson first limit depth src rest hmore
        exact (hone.bind (hrest.map _)).of_iff List.forall_mem_cons

theorem capped_fieldOfJson (first limit depth : Nat) (src : SourceRange) :
    ∀ (v : Json) {field : Field}, fieldOfJson first depth src v = .ok field →
      Capped limit (∀ c ∈ field.nodes, c.FitsAt limit (depth + 1))
        (fieldOfJson limit depth src v) field
  | .arr items, field, h => by
    rw [fieldOfJson] at h ⊢
    by_cases hsequence : Json.isNodeSequence items = true
    · rw [if_pos hsequence] at h ⊢
      obtain ⟨slots, hslots, h⟩ := bind_eq_ok.1 h
      cases h
      exact (capped_slotsOfJson first limit depth src items hslots).map _
    · rw [if_neg hsequence] at h ⊢
      cases h
      refine Capped.of_ok ?_ rfl
      intro c hc
      cases hc
  | .null, _, h | .bool _, _, h | .num _, _, h | .str _, _, h | .obj _, _, h => by
    simp only [fieldOfJson, Except.ok.injEq] at h ⊢
    subst h
    refine Capped.of_ok ?_ rfl
    intro c hc
    cases hc

theorem capped_slotsOfJson (first limit depth : Nat) (src : SourceRange) :
    ∀ (items : List Json) {slots : List (Option SyntaxNode)},
      slotsOfJson first depth src items = .ok slots →
      Capped limit (∀ c ∈ slots.filterMap id, c.FitsAt limit (depth + 1))
        (slotsOfJson limit depth src items) slots
  | [], slots, h => by
    rw [slotsOfJson] at h ⊢
    cases h
    refine Capped.of_ok ?_ rfl
    intro c hc
    cases hc
  | v :: rest, slots, h => by
    rw [slotsOfJson] at h ⊢
    by_cases hgap : v.isGap = true
    · rw [if_pos hgap] at h ⊢
      obtain ⟨more, hmore, h⟩ := bind_eq_ok.1 h
      cases h
      exact (capped_slotsOfJson first limit depth src rest hmore).map _
    · rw [if_neg hgap] at h ⊢
      obtain ⟨node, hread, h⟩ := bind_eq_ok.1 h
      obtain ⟨more, hmore, h⟩ := bind_eq_ok.1 h
      cases h
      have hone := capped_ofJsonAt first limit (depth + 1) src v hread
      have hrest := capped_slotsOfJson first limit depth src rest hmore
      exact (hone.bind (hrest.map _)).of_iff List.forall_mem_cons

end

/-! ## Reading and walking -/

/-- **Reading and walking agree on depth.**  A value that can be read under one limit can be read
under another, smaller or larger, exactly if a walk through the tree meets no fault under that other
limit.  Then it gives the same tree, and otherwise the fault of the tree that it is too deep. -/
theorem ofJson_agrees_with_walk {first : Nat} {v : Json} {root : SyntaxNode}
    (h : ofJson first v = .ok root) (limit : Nat) :
    (Succeeds (ofJson limit v) ↔ Visit.Clean (Walk.start root limit).visits) ∧
      (Visit.Clean (Walk.start root limit).visits → ofJson limit v = .ok root) ∧
      (¬ Visit.Clean (Walk.start root limit).visits →
        ofJson limit v = .error (.tooDeep limit)) := by
  have hcapped :
      Capped limit (Visit.Clean (Walk.start root limit).visits) (ofJson limit v) root := by
    unfold ofJson at h ⊢
    by_cases hnode : v.isNode = true
    · rw [if_pos hnode] at h ⊢
      exact (capped_ofJsonAt first limit 0 {} v h).of_iff clean_visits_iff
    · rw [if_neg hnode] at h
      cases h
  rcases hcapped with ⟨hclean, hok⟩ | ⟨hfault, herror⟩
  · refine ⟨iff_of_true ⟨root, hok⟩ hclean, fun _ => hok, fun hfault => absurd hclean hfault⟩
  · refine ⟨iff_of_false ?_ hfault, fun hclean => absurd hclean hfault, fun _ => herror⟩
    rw [herror]
    exact not_succeeds_error _

/-- A block with a gap and another block, which has no range of its own. -/
def nestedJson : Json :=
  .obj [("nodeType", .str "Block"), ("src", .str "3:9:0"),
    ("statements", .arr [.null, .obj [("nodeType", .str "Block")]])]

/-- The tree of two blocks. -/
def nestedTree : SyntaxNode :=
  .mk "Block" ⟨3, 9, some 0⟩
    [("statements", .sequence [none, some (.leaf "Block" ⟨3, 9, some 0⟩)])]

theorem ofJson_agrees_with_walk_nested :
    ofJson 1 nestedJson = .ok nestedTree ∧
      ofJson 0 nestedJson = .error (.tooDeep 0) ∧
      (Succeeds (ofJson 0 nestedJson) ↔ Visit.Clean (Walk.start nestedTree 0).visits) ∧
      ¬ Visit.Clean (Walk.start nestedTree 0).visits := by
  have h : ofJson 1 nestedJson = .ok nestedTree := rfl
  obtain ⟨hiff, -, -⟩ := ofJson_agrees_with_walk h 0
  have h₀ : ofJson 0 nestedJson = .error (.tooDeep 0) := rfl
  refine ⟨h, h₀, hiff, ?_⟩
  rw [← hiff, h₀]
  exact not_succeeds_error _

end SyntaxNode

end SolidityScan
