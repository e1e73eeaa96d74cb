/-
# What is read as a tree

A JSON value is read as a tree by what its objects look like: an object with a kind is a node, and
the nodes among its fields, alone or in arrays, are its children.  Reading succeeds exactly if every
node that is reached in this way is sound and none lies too deep.  What stands elsewhere in the
value, in scalars and in arrays that hold anything else, does not matter.  The tree then has a node
wherever the value has one.

* `Json.at?` : the node that a path leads to in a value;
* `Decides` : a computation that succeeds exactly under a condition, and what it then gives;
* `SyntaxNode.ofJson_exact` : which values are read, and what the tree has at each path;
* `SyntaxNode.ordered_of_ofJson` : the tree of a value with its keys in order is ordered.
-/
import SolidityScan.Proofs.Lists
import SolidityScan.Proofs.Tree.Depth
import SolidityScan.Proofs.Tree.Paths

namespace SolidityScan

open List (Forall₂)

/-! ## Nodes of a value -/

namespace Json

/-- The fields of a node besides its kind and its range. -/
def otherFields : Json → List (String × Json)
  | obj fields => fields.filter fun f => f.1 ≠ kindKey ∧ f.1 ≠ rangeKey
  | _ => []

/-- The nodes among the items of an array, slot by slot. -/
def itemSlots (items : List Json) : List (Option Json) :=
  items.map fun w => if w.isNode then some w else none

/-- The nodes that the value of a field holds, slot by slot: those of an array in which every item
is a node or null, or the value itself. -/
def slots : Json → List (Option Json)
  | arr items => if items.all fun w => w.isGap || w.isNode then itemSlots items else []
  | v => if v.isNode then [some v] else []

/-- The node that a step leads to. -/
def step? (v : Json) (s : Step) : Option Json :=
  v.otherFields[s.field]?.bind fun f => f.2.slots[s.slot]?.join

/-- The node that a path leads to. -/
def at? : Json → Path → Option Json
  | v, [] => some v
  | v, s :: path => (v.step? s).bind fun w => w.at? path

/-- The nodes from the root to the end of a path. -/
def trail : Json → Path → List Json
  | v, [] => [v]
  | v, s :: path => v :: ((v.step? s).map fun w => w.trail path).getD []

/-- The range that a node states itself. -/
def ownRange? (v : Json) : Option SourceRange :=
  (v.field? rangeKey).bind fun r => r.str?.bind SourceRange.parse?

/-- The range of the last node of the trail that states one, or else the given range. -/
def nearestRange (above : SourceRange) (trail : List Json) : SourceRange :=
  (trail.reverse.findSome? ownRange?).getD above

/-- The kind of the node is a string, and so is its range if it states one, in the written form of
ranges. -/
structure IsSound (v : Json) : Prop where
  kind : ∃ text, v.field? kindKey = some (.str text)
  range : ∀ r, v.field? rangeKey = some r →
    ∃ text src, r = .str text ∧ SourceRange.parse? text = some src

theorem otherFields_cons_key {name : String} {v : Json} {rest : List (String × Json)}
    (h : name = kindKey ∨ name = rangeKey) :
    (obj ((name, v) :: rest)).otherFields = (obj rest).otherFields := by
  rw [otherFields, otherFields, List.filter_cons_of_neg]
  rw [decide_eq_true_eq]
  exact fun hother => h.elim hother.1 hother.2

theorem otherFields_cons_other {name : String} {v : Json} {rest : List (String × Json)}
    (h : ¬ (name = kindKey ∨ name = rangeKey)) :
    (obj ((name, v) :: rest)).otherFields = (name, v) :: (obj rest).otherFields := by
  rw [otherFields, otherFields, List.filter_cons_of_pos]
  rw [decide_eq_true_eq]
  exact not_or.1 h

/-- A node stands in a slot of its own. -/
theorem slots_of_isNode {v : Json} (h : v.isNode = true) : v.slots = [some v] := by
  cases v with
  | obj fields => rw [slots, if_pos h]; rintro _ ⟨⟩
  | null | bool _ | num _ | str _ | arr _ => simp [isNode, field?] at h

/-- An array that is read as a sequence has a slot for every item. -/
theorem slots_of_isNodeSequence {items : List Json} (h : isNodeSequence items = true) :
    (arr items).slots = itemSlots items := by
  rw [slots, if_pos (Bool.and_eq_true_iff.1 h).1]

/-- The items of a sequence of nodes are nodes and gaps. -/
theorem gap_or_node_of_isNodeSequence {items : List Json} (h : isNodeSequence items = true) :
    ∀ w ∈ items, w.isGap = true ∨ w.isNode = true := by
  intro w hw
  have hall := List.all_eq_true.1 (Bool.and_eq_true_iff.1 h).1
  exact Bool.or_eq_true_iff.1 (hall w hw)

/-- Any other array has no slot with a node. -/
theorem forall_none_of_not_isNodeSequence {items : List Json}
    (h : ¬ isNodeSequence items = true) : ∀ slot ∈ (arr items).slots, slot = none := by
  rw [slots]
  split_ifs with hall
  · intro slot hslot
    obtain ⟨w, hw, rfl⟩ := List.mem_map.1 hslot
    refine if_neg fun hwnode => h ?_
    rw [isNodeSequence, hall, Bool.true_and, Bool.or_eq_true]
    exact Or.inr (List.any_eq_true.2 ⟨w, hw, hwnode⟩)
  · intro slot hslot
    cases hslot

theorem nearestRange_cons (above : SourceRange) (v : Json) (trail : List Json) :
    nearestRange above (v :: trail) = nearestRange (v.ownRange?.getD above) trail := by
  unfold nearestRange
  rw [List.reverse_cons, List.findSome?_append]
  cases trail.reverse.findSome? ownRange? with
  | some src => rfl
  | none =>
    cases h : v.ownRange? <;> simp [h]

/-- The nodes one step below a value are those in the slots of its other fields. -/
theorem exists_step?_iff {v w : Json} :
    (∃ s, v.step? s = some w) ↔ ∃ f ∈ v.otherFields, some w ∈ f.2.slots := by
  unfold step?
  constructor
  · rintro ⟨s, hs⟩
    obtain ⟨f, hfield, hslot⟩ := Option.bind_eq_some_iff.1 hs
    have hmem := List.mem_of_getElem? (Option.join_eq_some_iff.1 hslot)
    exact ⟨f, List.mem_of_getElem? hfield, hmem⟩
  · rintro ⟨f, hfield, hw⟩
    obtain ⟨i, hi⟩ := List.getElem?_of_mem hfield
    obtain ⟨j, hj⟩ := List.getElem?_of_mem hw
    refine ⟨⟨i, j⟩, Option.bind_eq_some_iff.2 ⟨f, hi, ?_⟩⟩
    exact Option.join_eq_some_iff.2 hj

theorem at?_cons_eq_some_iff {v w : Json} {s : Step} {path : Path} :
    v.at? (s :: path) = some w ↔ ∃ u, v.step? s = some u ∧ u.at? path = some w := by
  rw [at?, Option.bind_eq_some_iff]

end Json

/-! ## Computations that succeed under a condition -/

/-- The computation succeeds exactly if the condition holds, and then gives what satisfies
`post`. -/
def Decides {α : Type} (cond : Prop) (x : Except TreeFault α) (post : α → Prop) : Prop :=
  cond ∧ (∃ a, x = .ok a ∧ post a) ∨ ¬ cond ∧ ∃ fault, x = .error fault

namespace Decides

variable {α β : Type} {p q : Prop} {x : Except TreeFault α} {post : α → Prop}

theorem of_ok {a : α} (hp : p) (ha : post a) : Decides p (.ok a) post :=
  Or.inl ⟨hp, a, rfl, ha⟩

theorem of_error {fault : TreeFault} (hp : ¬ p) : Decides p (.error fault) post :=
  Or.inr ⟨hp, fault, rfl⟩

theorem of_iff (h : Decides p x post) (hpq : q ↔ p) : Decides q x post := by
  unfold Decides
  rwa [hpq]

/-- The computation succeeds exactly under the condition. -/
theorem succeeds_iff (h : Decides p x post) : Succeeds x ↔ p := by
  rcases h with ⟨hp, a, rfl, -⟩ | ⟨hp, fault, rfl⟩
  · exact iff_of_true (succeeds_ok a) hp
  · exact iff_of_false (not_succeeds_error fault) hp

theorem post_of_ok (h : Decides p x post) {a : α} (ha : x = .ok a) : post a := by
  rcases h with ⟨-, b, hb, hpost⟩ | ⟨-, fault, hfault⟩
  · rw [hb] at ha
    cases ha
    exact hpost
  · rw [hfault] at ha
    cases ha

/-- One computation after another needs both conditions. -/
theorem bind {f : α → Except TreeFault β} {post' : β → Prop} (hx : Decides p x post)
    (hf : ∀ a, post a → Decides q (f a) post') : Decides (p ∧ q) (x >>= f) post' := by
  rcases hx with ⟨hp, a, rfl, ha⟩ | ⟨hp, fault, rfl⟩
  · rcases hf a ha with ⟨hq, hok⟩ | ⟨hq, hfault⟩
    · exact Or.inl ⟨⟨hp, hq⟩, hok⟩
    · exact Or.inr ⟨fun h => hq h.2, hfault⟩
  · exact Or.inr ⟨fun h => hp h.1, fault, rfl⟩

theorem map {f : α → β} {post' : β → Prop} (hx : Decides p x post)
    (hf : ∀ a, post a → post' (f a)) : Decides p (x >>= fun a => .ok (f a)) post' := by
  have hbind : Decides (p ∧ True) (x >>= fun a => .ok (f a)) post' :=
    hx.bind fun a ha => of_ok trivial (hf a ha)
  exact hbind.of_iff (and_iff_left trivial).symm

end Decides

/-! ## Values and trees side by side -/

namespace SyntaxNode

/-- The node was read from the value: the kind and the names of the fields are those of the value,
and the range is the given one. -/
structure ReadFrom (src : SourceRange) (w : Json) (n : SyntaxNode) : Prop where
  kind : w.field? kindKey = some (.str n.kind)
  names : n.fields.map (·.1) = w.otherFields.map (·.1)
  src : n.src = src

/-- The tree has a node exactly where the value has one, and it was read from that. -/
def Mirrors (above : SourceRange) (v : Json) (n : SyntaxNode) : Prop :=
  ∀ path, Option.Rel (ReadFrom (Json.nearestRange above (v.trail path))) (v.at? path) (n.at? path)

/-- The slots of two fields hold nodes in the same places, each read from the other. -/
def SlotsMirror (above : SourceRange) (slots : List (Option Json)) (f : Field) : Prop :=
  ∀ j : Nat, Option.Rel (Mirrors above) slots[j]?.join f.slots[j]?.join

/-- The fields have the same names, and their slots mirror each other. -/
def FieldsMirror (above : SourceRange) : List (String × Json) → List (String × Field) → Prop :=
  Forall₂ fun g f => g.1 = f.1 ∧ SlotsMirror above g.2.slots f.2

/-- Fields that mirror each other have the same names, in order. -/
theorem FieldsMirror.names {above : SourceRange} {others : List (String × Json)}
    {fields : List (String × Field)} (h : FieldsMirror above others fields) :
    fields.map (·.1) = others.map (·.1) := by
  induction h with
  | nil => rfl
  | cons hgf _ ih => rw [List.map_cons, List.map_cons, ih, hgf.1]

/-- A step leads into both or into neither, and from mirrored fields to mirrored nodes. -/
theorem FieldsMirror.step? {above : SourceRange} {v : Json} {n : SyntaxNode}
    (h : FieldsMirror above v.otherFields n.fields) (s : Step) :
    Option.Rel (Mirrors above) (v.step? s) (n.step? s) := by
  unfold Json.step? SyntaxNode.step?
  have hfield := Lists.rel_getElem? h s.field
  revert hfield
  rcases v.otherFields[s.field]? with _ | g <;> rcases n.fields[s.field]? with _ | f
  · intro _
    exact .none
  · rintro ⟨⟩
  · rintro ⟨⟩
  · rintro ⟨hgf⟩
    exact hgf.2 s.slot

/-- A node mirrors a value if it was read from it and its fields mirror those of the value. -/
theorem mirrors_mk {above : SourceRange} {v : Json} {kind : String}
    {fields : List (String × Field)} (hkind : v.field? kindKey = some (.str kind))
    (hfields : FieldsMirror (v.ownRange?.getD above) v.otherFields fields) :
    Mirrors above v (.mk kind (v.ownRange?.getD above) fields) := by
  intro path
  cases path with
  | nil =>
    refine .some ⟨hkind, hfields.names, ?_⟩
    rw [Json.trail, Json.nearestRange_cons]
    rfl
  | cons s path =>
    have hstep : Option.Rel (Mirrors (v.ownRange?.getD above)) (v.step? s)
        (SyntaxNode.step? (.mk kind (v.ownRange?.getD above) fields) s) :=
      FieldsMirror.step? hfields s
    rw [Json.at?, at?, Json.trail, Json.nearestRange_cons]
    revert hstep
    rcases v.step? s with _ | w <;>
      rcases SyntaxNode.step? (.mk kind (v.ownRange?.getD above) fields) s with _ | c
    · intro _
      exact .none
    · rintro ⟨⟩
    · rintro ⟨⟩
    · rintro ⟨hwc⟩
      exact hwc path

/-! ## Reading -/

/-- At the given depth, every node of the value is sound and none lies deeper than the limit. -/
def Readable (limit depth : Nat) (v : Json) : Prop :=
  ∀ path w, v.at? path = some w → w.IsSound ∧ depth + path.length ≤ limit

/-- The nodes that the value of a field holds are readable one level below. -/
def SlotsReadable (limit depth : Nat) (slots : List (Option Json)) : Prop :=
  ∀ w, some w ∈ slots → Readable limit (depth + 1) w

/-- A value is readable if it is sound, not too deep, and all that it holds is readable. -/
theorem readable_iff {limit depth : Nat} {v : Json} :
    Readable limit depth v ↔ (depth ≤ limit ∧ v.IsSound) ∧
      ∀ f ∈ v.otherFields, SlotsReadable limit depth f.2.slots := by
  constructor
  · intro h
    obtain ⟨hsound, hdepth⟩ := h [] v rfl
    refine ⟨⟨hdepth, hsound⟩, fun f hf w hw path u hu => ?_⟩
    obtain ⟨s, hs⟩ := Json.exists_step?_iff.2 ⟨f, hf, hw⟩
    obtain ⟨husound, hlength⟩ := h (s :: path) u (Json.at?_cons_eq_some_iff.2 ⟨w, hs, hu⟩)
    rw [List.length_cons] at hlength
    exact ⟨husound, by omega⟩
  · rintro ⟨⟨hdepth, hsound⟩, hfields⟩ path u hu
    cases path with
    | nil =>
      cases hu
      exact ⟨hsound, hdepth⟩
    | cons s path =>
      obtain ⟨w, hs, hu⟩ := Json.at?_cons_eq_some_iff.1 hu
      obtain ⟨f, hf, hw⟩ := Json.exists_step?_iff.1 ⟨s, hs⟩
      obtain ⟨husound, hlength⟩ := hfields f hf w hw path u hu
      rw [List.length_cons]
      exact ⟨husound, by omega⟩

theorem slotsReadable_nil (limit depth : Nat) : SlotsReadable limit depth [] := by
  intro w hw
  cases hw

theorem slotsReadable_cons {limit depth : Nat} {slot : Option Json} {slots : List (Option Json)} :
    SlotsReadable limit depth (slot :: slots) ↔
      (∀ w, slot = some w → Readable limit (depth + 1) w) ∧ SlotsReadable limit depth slots := by
  unfold SlotsReadable
  simp only [List.mem_cons]
  constructor
  · intro h
    exact ⟨fun w hw => h w (Or.inl hw.symm), fun w hw => h w (Or.inr hw)⟩
  · rintro ⟨hslot, hslots⟩ w (hw | hw)
    · exact hslot w hw.symm
    · exact hslots w hw

/-- Reads the kind of a node. -/
def readKind (v : Json) : Except TreeFault String :=
  match (v.field? kindKey).bind Json.str? with
  | some kind => .ok kind
  | none => .error .kindNotString

/-- Reads the range of a node, which is the range above unless the node states its own. -/
def readRange (kind : String) (above : SourceRange) (v : Json) : Except TreeFault SourceRange :=
  match v.field? rangeKey with
  | some (.str text) => parseRange text
  | some other => .error (.rangeNotString kind other.compact)
  | none => .ok above

/-- The header is read in three steps: the depth is checked, then come the kind and the range. -/
theorem header_eq (limit depth : Nat) (above : SourceRange) (v : Json) :
    header limit depth above v = (if limit < depth then .error (.tooDeep limit) else do
      let kind ← readKind v
      let src ← readRange kind above v
      .ok (kind, src)) := by
  unfold header readKind readRange
  by_cases hdeep : limit < depth
  · rw [if_pos hdeep, if_pos hdeep]
    rfl
  · rw [if_neg hdeep, if_neg hdeep]
    cases (v.field? kindKey).bind Json.str? with
    | none => rfl
    | some kind =>
      cases v.field? rangeKey with
      | none => rfl
      | some r => cases r <;> rfl

/-- A kind is read exactly if there is one and it is a text. -/
theorem decides_readKind (v : Json) :
    Decides (∃ text, v.field? kindKey = some (.str text)) (readKind v) fun kind =>
      v.field? kindKey = some (.str kind) := by
  unfold readKind
  have hstr : ∀ kind, (v.field? kindKey).bind Json.str? = some kind ↔
      v.field? kindKey = some (.str kind) := by
    intro kind
    cases v.field? kindKey with
    | none => simp
    | some k => cases k <;> simp [Json.str?]
  cases h : (v.field? kindKey).bind Json.str? with
  | some kind => exact Decides.of_ok ⟨kind, (hstr kind).1 h⟩ ((hstr kind).1 h)
  | none =>
    refine Decides.of_error ?_
    rintro ⟨kind, hkind⟩
    rw [(hstr kind).2 hkind] at h
    cases h

/-- A range is read unless there is one that is no text of a range. -/
theorem decides_readRange (kind : String) (above : SourceRange) (v : Json) :
    Decides (∀ r, v.field? rangeKey = some r →
        ∃ text src, r = .str text ∧ SourceRange.parse? text = some src)
      (readRange kind above v) fun src => src = v.ownRange?.getD above := by
  unfold readRange Json.ownRange?
  cases v.field? rangeKey with
  | none =>
    refine Decides.of_ok ?_ rfl
    intro r hr
    cases hr
  | some r =>
    -- the condition is about the one range that the node states
    have hone : (∀ r', some r = some r' → ∃ text src, r' = .str text ∧
        SourceRange.parse? text = some src) ↔
          ∃ text src, r = .str text ∧ SourceRange.parse? text = some src := by
      simp only [Option.some.injEq, forall_eq']
    refine Decides.of_iff ?_ hone
    cases r with
    | str text =>
      simp only [parseRange, Json.str?, Option.bind_some]
      cases hparse : SourceRange.parse? text with
      | some src => exact Decides.of_ok ⟨text, src, rfl, hparse⟩ rfl
      | none =>
        refine Decides.of_error ?_
        rintro ⟨text', src, htext, hsrc⟩
        cases htext
        rw [hparse] at hsrc
        cases hsrc
    | null | bool _ | num _ | arr _ | obj _ =>
      refine Decides.of_error ?_
      rintro ⟨text, src, htext, -⟩
      cases htext

/-- The kind and the range are read exactly from a sound node that is not too deep. -/
theorem decides_header (limit depth : Nat) (above : SourceRange) (v : Json) :
    Decides (depth ≤ limit ∧ v.IsSound) (header limit depth above v) fun result =>
      v.field? kindKey = some (.str result.1) ∧ result.2 = v.ownRange?.getD above := by
  rw [header_eq]
  by_cases hdeep : limit < depth
  · rw [if_pos hdeep]
    exact Decides.of_error fun h => absurd h.1 (Nat.not_le.2 hdeep)
  · rw [if_neg hdeep]
    have hsound : depth ≤ limit ∧ v.IsSound ↔ (∃ text, v.field? kindKey = some (.str text)) ∧
        ∀ r, v.field? rangeKey = some r →
          ∃ text src, r = .str text ∧ SourceRange.parse? text = some src := by
      constructor
      · rintro ⟨-, hsound⟩
        exact ⟨hsound.kind, hsound.range⟩
      · rintro ⟨hkind, hrange⟩
        exact ⟨Nat.not_lt.1 hdeep, hkind, hrange⟩
    refine Decides.of_iff ?_ hsound
    refine (decides_readKind v).bind fun kind hkind => ?_
    exact (decides_readRange kind above v).map fun src hsrc => ⟨hkind, hsrc⟩

/-! ## Reading nodes, fields and slots -/

theorem slotsMirror_of_node {above : SourceRange} {v : Json} {n : SyntaxNode}
    (hv : v.isNode = true) (h : Mirrors above v n) :
    SlotsMirror above v.slots (.child (some n)) := by
  intro j
  rw [Json.slots_of_isNode hv]
  cases j with
  | zero => exact .some h
  | succ j => exact .none

/-- Slots without nodes mirror a field without nodes. -/
theorem slotsMirror_of_forall_none {above : SourceRange} {slots : List (Option Json)} {f : Field}
    (hslots : ∀ slot ∈ slots, slot = none) (hf : ∀ slot ∈ f.slots, slot = none) :
    SlotsMirror above slots f := by
  have hjoin : ∀ {α : Type} (l : List (Option α)) (j : Nat), (∀ slot ∈ l, slot = none) →
      l[j]?.join = none := by
    intro α l j hl
    cases h : l[j]? with
    | none => rfl
    | some slot => rw [hl slot (List.mem_of_getElem? h)]; rfl
  intro j
  rw [hjoin _ j hslots, hjoin _ j hf]
  exact .none

theorem slotsMirror_sequence {above : SourceRange} {items : List Json}
    {slots : List (Option SyntaxNode)}
    (h : Forall₂ (Option.Rel (Mirrors above)) (Json.itemSlots items) slots) :
    SlotsMirror above (Json.itemSlots items) (.sequence slots) := by
  intro j
  have hslot := Lists.rel_getElem? h j
  change Option.Rel (Mirrors above) (Json.itemSlots items)[j]?.join slots[j]?.join
  revert hslot
  rcases (Json.itemSlots items)[j]? with _ | a <;> rcases slots[j]? with _ | b
  · intro _
    exact .none
  · rintro ⟨⟩
  · rintro ⟨⟩
  · rintro ⟨hab⟩
    exact hab

-- The recursion is that of reading: a node is decided by its header and its fields, and these by
-- the nodes in their slots, one level below.
mutual

/-- A node is read exactly if the value is readable, and mirrors it. -/
theorem decides_ofJsonAt (limit depth : Nat) (above : SourceRange) :
    ∀ v : Json, v.isNode = true →
      Decides (Readable limit depth v) (ofJsonAt limit depth above v) (Mirrors above v)
  | .obj fields, _ => by
    rw [ofJsonAt]
    refine Decides.of_iff ?_ readable_iff
    refine (decides_header limit depth above (.obj fields)).bind ?_
    rintro ⟨kind, src⟩ ⟨hkind, rfl⟩
    refine (decides_fieldsOfJson limit depth _ fields).map ?_
    intro read hread
    exact mirrors_mk hkind hread
  | .null, h | .bool _, h | .num _, h | .str _, h | .arr _, h => by
    simp [Json.isNode, Json.field?] at h

theorem decides_fieldsOfJson (limit depth : Nat) (src : SourceRange) :
    ∀ fields : List (String × Json),
      Decides (∀ f ∈ (Json.obj fields).otherFields, SlotsReadable limit depth f.2.slots)
        (fieldsOfJson limit depth src fields) (FieldsMirror src (Json.obj fields).otherFields)
  | [] => by
    refine Decides.of_ok ?_ .nil
    intro f hf
    cases hf
  | (name, v) :: rest => by
    have ihrest := decides_fieldsOfJson limit depth src rest
    rw [fieldsOfJson]
    by_cases hkey : name = kindKey ∨ name = rangeKey
    · rw [if_pos hkey, Json.otherFields_cons_key hkey]
      exact ihrest
    · rw [if_neg hkey, Json.otherFields_cons_other hkey]
      by_cases hnode : v.isNode = true
      · rw [if_pos hnode]
        refine Decides.of_iff ?_ List.forall_mem_cons
        have hone : SlotsReadable limit depth v.slots ↔ Readable limit (depth + 1) v := by
          rw [Json.slots_of_isNode hnode, slotsReadable_cons]
          simp [slotsReadable_nil]
        refine Decides.of_iff ?_ (and_congr_left' hone)
        refine (decides_ofJsonAt limit (depth + 1) src v hnode).bind fun node hread => ?_
        exact ihrest.map fun read hrest => .cons ⟨rfl, slotsMirror_of_node hnode hread⟩ hrest
      · rw [if_neg hnode]
        refine Decides.of_iff ?_ List.forall_mem_cons
        refine (decides_fieldOfJson limit depth src v hnode).bind fun field hread => ?_
        exact ihrest.map fun read hrest => .cons ⟨rfl, hread⟩ hrest

theorem decides_fieldOfJson (limit depth : Nat) (src : SourceRange) :
    ∀ v : Json, ¬ v.isNode = true →
      Decides (SlotsReadable limit depth v.slots) (fieldOfJson limit depth src v)
        (SlotsMirror src v.slots)
  | .arr items, _ => by
    rw [fieldOfJson]
    by_cases hsequence : Json.isNodeSequence items = true
    · rw [if_pos hsequence, Json.slots_of_isNodeSequence hsequence]
      have hitems := Json.gap_or_node_of_isNodeSequence hsequence
      exact (decides_slotsOfJson limit depth src items hitems).map
        fun slots hslots => slotsMirror_sequence hslots
    · rw [if_neg hsequence]
      have hnone := Json.forall_none_of_not_isNodeSequence hsequence
      refine Decides.of_ok ?_ (slotsMirror_of_forall_none hnone ?_)
      · intro w hw
        cases hnone _ hw
      · intro slot hslot
        cases hslot
  | .null, _ => by
    refine Decides.of_ok (slotsReadable_nil limit depth) (slotsMirror_of_forall_none ?_ ?_)
    · intro slot hslot
      cases hslot
    · intro slot hslot
      exact List.mem_singleton.1 hslot
  | .bool _, _ | .num _, _ | .str _, _ => by
    refine Decides.of_ok (slotsReadable_nil limit depth) (slotsMirror_of_forall_none ?_ ?_)
    · intro slot hslot
      cases hslot
    · intro slot hslot
      cases hslot
  | .obj fields, h => by
    have hslots : (Json.obj fields).slots = [] := if_neg h
    rw [hslots]
    refine Decides.of_ok (slotsReadable_nil limit depth) (slotsMirror_of_forall_none ?_ ?_)
    · intro slot hslot
      cases hslot
    · intro slot hslot
      cases hslot

theorem decides_slotsOfJson (limit depth : Nat) (src : SourceRange) :
    ∀ items : List Json, (∀ w ∈ items, w.isGap = true ∨ w.isNode = true) →
      Decides (SlotsReadable limit depth (Json.itemSlots items)) (slotsOfJson limit depth src items)
        (Forall₂ (Option.Rel (Mirrors src)) (Json.itemSlots items))
  | [], _ => Decides.of_ok (slotsReadable_nil limit depth) .nil
  | v :: rest, h => by
    obtain ⟨hv, hrest⟩ := List.forall_mem_cons.1 h
    have ihrest := decides_slotsOfJson limit depth src rest hrest
    rw [slotsOfJson]
    refine Decides.of_iff ?_ slotsReadable_cons
    by_cases hgap : v.isGap = true
    · have hnode : ¬ v.isNode = true := by
        cases v <;> simp [Json.isGap, Json.isNode, Json.field?] at hgap ⊢
      rw [if_pos hgap]
      have hslot : (∀ w, (if v.isNode = true then some v else none) = some w →
          Readable limit (depth + 1) w) ↔ True := by simp [hnode]
      refine Decides.of_iff ?_ ((and_congr_left' hslot).trans (iff_of_eq (true_and _)))
      refine ihrest.map fun slots hslots => ?_
      rw [Json.itemSlots, List.map_cons, if_neg hnode]
      exact .cons .none hslots
    · have hnode : v.isNode = true := hv.resolve_left hgap
      rw [if_neg hgap]
      have hslot : (∀ w, (if v.isNode = true then some v else none) = some w →
          Readable limit (depth + 1) w) ↔ Readable limit (depth + 1) v := by simp [hnode]
      refine Decides.of_iff ?_ (and_congr_left' hslot)
      refine (decides_ofJsonAt limit (depth + 1) src v hnode).bind fun node hread => ?_
      refine ihrest.map fun slots hslots => ?_
      rw [Json.itemSlots, List.map_cons, if_pos hnode]
      exact .cons (.some hread) hslots

end

theorem decides_ofJson (limit : Nat) (v : Json) :
    Decides (v.isNode = true ∧ Readable limit 0 v) (ofJson limit v) (Mirrors {} v) := by
  unfold ofJson
  by_cases hnode : v.isNode = true
  · rw [if_pos hnode]
    exact (decides_ofJsonAt limit 0 {} v hnode).of_iff (and_iff_right hnode)
  · rw [if_neg hnode]
    exact Decides.of_error fun h => hnode h.1

/-- **Reading accepts exactly the values whose nodes are all sound and not too deep**, and gives a
tree that has a node wherever the value has one, with the kind and the field names that stand there,
and with the range that is stated nearest above it. -/
theorem ofJson_exact (limit : Nat) (v : Json) :
    (Succeeds (ofJson limit v) ↔
        v.isNode = true ∧ ∀ path w, v.at? path = some w → w.IsSound ∧ path.length ≤ limit) ∧
      ∀ root, ofJson limit v = .ok root → ∀ path,
        Option.Rel (ReadFrom (Json.nearestRange {} (v.trail path))) (v.at? path)
          (root.at? path) := by
  have hread := decides_ofJson limit v
  refine ⟨?_, fun root hroot => hread.post_of_ok hroot⟩
  have hreadable : Readable limit 0 v ↔
      ∀ path w, v.at? path = some w → w.IsSound ∧ path.length ≤ limit := by
    unfold Readable
    simp only [Nat.zero_add]
  rw [hread.succeeds_iff, hreadable]

/-- A function that states no range, with a body that does, and in it a statement that does not.  An
object whose kind is null stands in an array with a number, where it is not reached. -/
def unrangedJson : Json :=
  .obj [("body", .obj [("nodeType", .str "Block"), ("src", .str "5:9:1"),
      ("statements", .arr [.null, .obj [("nodeType", .str "Return")]])]),
    ("notes", .arr [.nat 1, .obj [("nodeType", .null)]]),
    ("nodeType", .str "FunctionDefinition")]

theorem ofJson_exact_unranged :
    Succeeds (ofJson 2 unrangedJson) ∧ ¬ Succeeds (ofJson 1 unrangedJson) ∧
      ∃ root n, ofJson 2 unrangedJson = .ok root ∧ root.src = {} ∧
        root.at? [⟨0, 0⟩, ⟨0, 1⟩] = some n ∧
        ReadFrom ⟨5, 9, some 1⟩ (.obj [("nodeType", .str "Return")]) n := by
  let statement := leaf "Return" ⟨5, 9, some 1⟩
  let body : SyntaxNode :=
    .mk "Block" ⟨5, 9, some 1⟩ [("statements", .sequence [none, some statement])]
  let root : SyntaxNode := .mk "FunctionDefinition" {} [("body", .child (some body)),
    ("notes", .scalar (.arr [.nat 1, .obj [("nodeType", .null)]]))]
  have hroot : ofJson 2 unrangedJson = .ok root := rfl
  obtain ⟨-, hmirrors⟩ := ofJson_exact 2 unrangedJson
  have hpath : Option.Rel (ReadFrom ⟨5, 9, some 1⟩)
      (some (.obj [("nodeType", .str "Return")])) (some statement) :=
    hmirrors root hroot [⟨0, 0⟩, ⟨0, 1⟩]
  refine ⟨⟨root, hroot⟩, ?_, root, statement, hroot, rfl, rfl, ?_⟩
  · have hdeep : ofJson 1 unrangedJson = .error (.tooDeep 1) := rfl
    rw [hdeep]
    exact not_succeeds_error _
  · cases hpath with
    | some h => exact h

end SyntaxNode

/-! ## Trees that were read are ordered -/

namespace Json.Ordered

theorem otherFields {v : Json} (h : v.Ordered) : Ascending v.otherFields := by
  cases h with
  | obj hfields _ => exact hfields.filter _
  | null | bool _ | num _ | str _ | arr _ => exact List.Pairwise.nil

theorem of_mem_otherFields {v : Json} (h : v.Ordered) {f : String × Json} (hf : f ∈ v.otherFields) :
    f.2.Ordered := by
  cases h with
  | obj _ hvalues => exact hvalues f (List.mem_filter.1 hf).1
  | null | bool _ | num _ | str _ | arr _ => cases hf

/-- The nodes in the slots of an ordered value are ordered. -/
theorem slot {v w : Json} (h : v.Ordered) (hw : some w ∈ v.slots) : w.Ordered := by
  by_cases hnode : v.isNode = true
  · rw [slots_of_isNode hnode, List.mem_singleton] at hw
    cases hw
    exact h
  · cases h with
    | arr hitems =>
      rw [slots] at hw
      split_ifs at hw
      · obtain ⟨u, hu, huw⟩ := List.mem_map.1 hw
        split_ifs at huw
        cases huw
        exact hitems _ hu
      · cases hw
    | obj _ _ =>
      rw [slots, if_neg hnode] at hw
      · cases hw
      · rintro _ ⟨⟩
    | null | bool _ | num _ | str _ => cases hw

/-- So are the nodes below it, at every path. -/
theorem at? {v w : Json} {path : Path} (h : v.Ordered) (hw : v.at? path = some w) :
    w.Ordered := by
  induction path generalizing v with
  | nil =>
    cases hw
    exact h
  | cons s path ih =>
    obtain ⟨u, hs, hw⟩ := at?_cons_eq_some_iff.1 hw
    obtain ⟨f, hf, hu⟩ := exists_step?_iff.1 ⟨s, hs⟩
    exact ih ((h.of_mem_otherFields hf).slot hu) hw

end Json.Ordered

namespace SyntaxNode

/-- A tree that was read from a value with its keys in order has its fields in order. -/
theorem ordered_of_ofJson {limit : Nat} {v : Json} {root : SyntaxNode} (hv : v.Ordered)
    (h : ofJson limit v = .ok root) : root.Ordered := by
  intro path n hn
  have hmirrors := (decides_ofJson limit v).post_of_ok h path
  rw [hn] at hmirrors
  revert hmirrors
  cases hw : v.at? path with
  | none => rintro ⟨⟩
  | some w =>
    rintro ⟨hread⟩
    have hnames := List.pairwise_map.2 (hv.at? hw).otherFields
    rw [← hread.names] at hnames
    exact List.pairwise_map.1 hnames

end SyntaxNode

/-- The value of a text of a tree has its keys in order. -/
theorem Json.ordered_of_parseTreeJson {text : String} {v : Json} (h : parseTreeJson text = .ok v) :
    v.Ordered := by
  unfold parseTreeJson at h
  dsimp only at h
  split_ifs at h
  cases hparse : Json.parse? text with
  | none =>
    rw [hparse] at h
    cases h
  | some u =>
    rw [hparse] at h
    cases h
    exact Json.ordered_of_parse? hparse

end SolidityScan
