/-
# Rules on padded trees

Versions of the compiler differ in the fields that they write: some add scalars that no rule looks
for, and some write an explicit null where others write nothing.  A tree is padded by adding such
fields at any of its nodes, and the detectors for trees do not notice.

* `SyntaxNode.Padded` : a tree with such fields added anywhere;
* `SyntaxNode.padding` : a tree looks like its padded form to rules.
-/
import SolidityScan.Proofs.Json.Fields
import SolidityScan.Proofs.Rules.Simulation

namespace SolidityScan

open List (Forall₂)

/-! ## Padded trees -/

/-- A field that a node may as well not have: one that holds no child, or a scalar under a name that
no rule looks for. -/
def Field.Ignorable (name : String) : Field → Prop
  | .child none => True
  | .scalar _ => name ∉ SyntaxNode.readNames
  | _ => False

instance (name : String) : (f : Field) → Decidable (f.Ignorable name)
  | .child none => isTrue trivial
  | .child (some _) => isFalse id
  | .sequence _ => isFalse id
  | .scalar _ => inferInstanceAs (Decidable (name ∉ SyntaxNode.readNames))

/-- A field matches itself if its nodes are related to themselves. -/
theorem Field.Matches.refl {R : SyntaxNode → SyntaxNode → Prop} {f : Field}
    (h : ∀ c ∈ f.nodes, R c c) : f.Matches R f := by
  have hslot (slot : Option SyntaxNode) (hslot : ∀ c ∈ slot, R c c) : Option.Rel R slot slot := by
    cases slot with
    | none => exact .none
    | some c => exact .some (hslot c rfl)
  cases f with
  | child node => exact .child (hslot node fun c hc => h c (Option.mem_toList.2 hc))
  | sequence slots =>
    refine .sequence (List.forall₂_same.2 fun slot hmem => hslot slot fun c hc => ?_)
    exact h c (List.mem_filterMap.2 ⟨slot, hmem, hc⟩)
  | scalar value => exact .scalar value

/-- Two fields with the same name match. -/
inductive Field.MatchesNamed (R : SyntaxNode → SyntaxNode → Prop) :
    String × Field → String × Field → Prop where
  | mk {name : String} {f g : Field} : f.Matches R g → MatchesNamed R (name, f) (name, g)

theorem Field.matchesNamed_self {R : SyntaxNode → SyntaxNode → Prop}
    {fields : List (String × Field)} (h : ∀ p ∈ fields, ∀ c ∈ p.2.nodes, R c c) :
    Forall₂ (MatchesNamed R) fields fields :=
  List.forall₂_same.2 fun p hp => .mk (.refl (h p hp))

namespace SyntaxNode

/-- The second tree is the first one with ignorable fields added, at any of its nodes, under names
that the node does not have. -/
inductive Padded : SyntaxNode → SyntaxNode → Prop where
  | mk {kind : String} {src : SourceRange} {fields fields' : List (String × Field)} :
      Forall₂ (Field.MatchesNamed Padded) fields
        (fields'.filter fun p => p.1 ∈ fields.map (·.1)) →
      (∀ p ∈ fields', p.1 ∉ fields.map (·.1) → p.2.Ignorable p.1) →
      Padded (.mk kind src fields) (.mk kind src fields')

namespace Padded

/-- Every tree is its own padded form, with nothing added. -/
theorem refl (n : SyntaxNode) : Padded n n := by
  induction hsize : n.size using Nat.strongRecOn generalizing n with
  | _ size ih =>
    obtain ⟨kind, src, fields⟩ := n
    have hchild : ∀ p ∈ fields, ∀ c ∈ p.2.nodes, Padded c c := by
      intro p hp c hc
      have hlt := size_lt_of_mem_childNodes (n := .mk kind src fields)
        (mem_childNodes.2 ⟨p.1, p.2, hp, hc⟩)
      exact ih c.size (hsize ▸ hlt) c rfl
    refine .mk ?_ ?_
    · rw [List.filter_eq_self.2 fun p hp => decide_eq_true (List.mem_map_of_mem hp)]
      exact Field.matchesNamed_self hchild
    · intro p hp hnew
      exact absurd (List.mem_map_of_mem hp) hnew

end Padded

/-! ## Adding one field -/

/-- A field that is inserted and filtered out again leaves no trace. -/
theorem filter_insertField {α : Type} {key : String} {value : α} {names : List String}
    (hkey : key ∉ names) {fields : List (String × α)} (hfields : ∀ p ∈ fields, p.1 ∈ names) :
    (Json.insertField key value fields).filter (fun p => p.1 ∈ names) = fields := by
  induction fields with
  | nil => simp [Json.insertField, hkey]
  | cons q rest ih =>
    obtain ⟨hq, hrest⟩ := List.forall_mem_cons.1 hfields
    unfold Json.insertField
    split_ifs with hlt heq
    · rw [List.filter_cons_of_neg (by simpa using hkey), List.filter_eq_self]
      exact fun p hp => decide_eq_true (hfields p hp)
    · -- an equal key would be replaced, but the key is new
      exact absurd (heq ▸ hq) hkey
    · rw [List.filter_cons_of_pos (by simpa using hq), ih hrest]

/-- Adding one ignorable field under a new name is to pad the tree. -/
theorem Padded.withField {n : SyntaxNode} {name : String} {f : Field}
    (hname : name ∉ n.fields.map (·.1)) (hf : f.Ignorable name) :
    Padded n (n.withField name f) := by
  obtain ⟨kind, src, fields⟩ := n
  change name ∉ fields.map (·.1) at hname
  refine .mk ?_ ?_
  · change Forall₂ _ fields
      ((Json.insertField name f fields).filter fun p => p.1 ∈ fields.map (·.1))
    rw [filter_insertField hname fun p hp => List.mem_map_of_mem hp]
    exact Field.matchesNamed_self fun _ _ c _ => .refl c
  · intro p hp hnew
    rcases Json.mem_insertField hp with rfl | hp
    · exact hf
    · exact absurd (List.mem_map_of_mem hp) hnew

/-! ## What rules see of a padded tree -/

/-- Fields that match name by name are alike under every name. -/
theorem alike_lookup_of_matches {R : SyntaxNode → SyntaxNode → Prop}
    {fields fields' : List (String × Field)} (h : Forall₂ (Field.MatchesNamed R) fields fields')
    (name : String) : Field.Alike R name (fields.lookup name) (fields'.lookup name) := by
  induction h with
  | nil => exact .absent
  | cons hmatches _ ih =>
    obtain ⟨hfield⟩ := hmatches
    rw [List.lookup_cons, List.lookup_cons]
    split
    · exact .present hfield
    · exact ih

theorem lookup_filter {names : List String} {name : String} (h : name ∈ names)
    (fields : List (String × Field)) :
    (fields.filter fun p => p.1 ∈ names).lookup name = fields.lookup name := by
  induction fields with
  | nil => rfl
  | cons p rest ih =>
    by_cases hp : p.1 ∈ names
    · rw [List.filter_cons_of_pos (by simpa using hp), List.lookup_cons, List.lookup_cons, ih]
    · have hne : (name == p.1) = false := beq_false_of_ne fun heq => hp (heq ▸ h)
      rw [List.filter_cons_of_neg (by simpa using hp), ih, List.lookup_cons, hne]

/-- Under a name that only the padded node has, there is nothing to see. -/
theorem alike_lookup_of_ignorable {R : SyntaxNode → SyntaxNode → Prop} {name : String}
    {fields : List (String × Field)} (h : ∀ p ∈ fields, p.1 = name → p.2.Ignorable name) :
    Field.Alike R name none (fields.lookup name) := by
  cases hlookup : fields.lookup name with
  | none => exact .absent
  | some f =>
    obtain ⟨before, after, hfields, _⟩ := List.lookup_eq_some_iff.1 hlookup
    have hf : f.Ignorable name := h (name, f) (by simp [hfields]) rfl
    match f, hf with
    | .child none, _ => exact .null
    | .scalar value, hunread => exact .unread value hunread

/-- A field that may be ignored holds no nodes. -/
theorem nodes_of_ignorable {name : String} {f : Field} (h : f.Ignorable name) : f.nodes = [] := by
  match f, h with
  | .child none, _ => rfl
  | .scalar value, _ => rfl

/-- The fields that may be ignored can be left out without losing a node. -/
theorem flatMap_filter_nodes {names : List String} {fields : List (String × Field)}
    (h : ∀ p ∈ fields, p.1 ∉ names → p.2.Ignorable p.1) :
    (fields.filter fun p => p.1 ∈ names).flatMap (·.2.nodes) = fields.flatMap (·.2.nodes) := by
  induction fields with
  | nil => rfl
  | cons p rest ih =>
    obtain ⟨hp, hrest⟩ := List.forall_mem_cons.1 h
    by_cases hmem : p.1 ∈ names
    · rw [List.filter_cons_of_pos (by simpa using hmem), List.flatMap_cons, List.flatMap_cons,
        ih hrest]
    · rw [List.filter_cons_of_neg (by simpa using hmem), ih hrest, List.flatMap_cons,
        nodes_of_ignorable (hp hmem), List.nil_append]

section

variable {fields fields' : List (String × Field)}
  (hkept : Forall₂ (Field.MatchesNamed Padded) fields
    (fields'.filter fun p => p.1 ∈ fields.map (·.1)))
  (hadded : ∀ p ∈ fields', p.1 ∉ fields.map (·.1) → p.2.Ignorable p.1)

include hkept hadded

/-- What a rule looks for is found alike with and without the padding. -/
theorem alike_lookup_of_padded (name : String) :
    Field.Alike Padded name (fields.lookup name) (fields'.lookup name) := by
  by_cases hname : name ∈ fields.map (·.1)
  · rw [← lookup_filter hname fields']
    exact alike_lookup_of_matches hkept name
  · have habsent : fields.lookup name = none := by
      rw [List.lookup_eq_none_iff]
      intro p hp
      exact bne_iff_ne.2 fun heq => hname (heq ▸ List.mem_map_of_mem hp)
    rw [habsent]
    exact alike_lookup_of_ignorable fun p hp heq => heq ▸ hadded p hp (heq ▸ hname)

theorem padded_nodes :
    Forall₂ Padded (fields.flatMap (·.2.nodes)) (fields'.flatMap (·.2.nodes)) := by
  rw [← flatMap_filter_nodes hadded]
  refine List.rel_flatMap hkept ?_
  rintro _ _ ⟨hmatches⟩
  exact hmatches.nodes

end

/-- A tree looks like its padded form to rules. -/
def padding : Simulation where
  move := id
  Rel := Padded
  move_injective := Function.injective_id
  offset_move_le_iff _ _ := Iff.rfl
  kind := by
    rintro _ _ ⟨_, _⟩
    rfl
  src := by
    rintro _ _ ⟨_, _⟩
    rfl
  field? := by
    rintro _ _ ⟨hkept, hadded⟩ name
    exact alike_lookup_of_padded hkept hadded name
  nodes := by
    rintro _ _ ⟨hkept, hadded⟩
    exact padded_nodes hkept hadded

end SyntaxNode

/-! ## Detectors -/

theorem Hit.map_move_id (hits : List Hit) : hits.map (Hit.move id) = hits :=
  List.map_id hits

theorem TreeFault.move_id (fault : TreeFault) : fault.move id = fault := by
  cases fault <;> rfl

namespace Detector

/-- **The detectors for trees do not notice padding**: they have the same hits in the same order,
or fail for the same reason. -/
theorem structuralDetectors_ignorePadding :
    Catalog.structuralDetectors.length = 17 ∧
      ∀ d ∈ Catalog.structuralDetectors, ∀ (f : SourceFile) (root root' : SyntaxNode),
        root.Padded root' → d.detect (f.withTree root') = d.detect (f.withTree root) := by
  refine ⟨rfl, fun d hd f root root' hpadded => ?_⟩
  rcases (respects_structuralDetectors d hd).detect_cases SyntaxNode.padding hpadded f with
    ⟨hits, hroot, hroot'⟩ | ⟨fault, hroot, hroot'⟩
  · rw [hroot, hroot']
    exact congrArg Ending.hits (Hit.map_move_id hits)
  · rw [hroot, hroot']
    exact congrArg (fun fault => Ending.failed (.engine (.structural fault))) fault.move_id

/-- A block of assembly that calls `return`. -/
def returningBlock : SyntaxNode :=
  .mk "InlineAssembly" ⟨14, 20, some 0⟩
    [("AST", .child (some (.mk "YulFunctionCall" ⟨25, 8, some 0⟩
      [("functionName", .child (some (.mk "YulIdentifier" ⟨25, 6, some 0⟩
        [("name", .scalar (.str "return"))])))])))]

/-- A function with the given body and further fields. -/
def functionOf (body : SyntaxNode) (others : List (String × Field)) : SyntaxNode :=
  .mk "FunctionDefinition" ⟨0, 36, some 0⟩ (("body", .child (some body)) :: others)

/-- The padded tree has a number at the block, which no rule looks for, and an explicit null at the
function, under a name that rules do look for. -/
theorem structuralDetectors_ignorePadding_returningBlock :
    let d := Catalog.structuralDetectors.get ⟨14, by decide⟩
    let f : SourceFile := { path := "a.sol", text := "" }
    let root := functionOf returningBlock []
    let root' := functionOf (returningBlock.withField "id" (.scalar (.nat 7)))
      [("modifiers", .child none)]
    d ∈ Catalog.structuralDetectors ∧ root.Padded root' ∧
      d.detect (f.withTree root) = .hits [{ range := ⟨14, 20, some 0⟩ }] ∧
        d.detect (f.withTree root') = .hits [{ range := ⟨14, 20, some 0⟩ }] := by
  intro d f root root'
  have hd : d ∈ Catalog.structuralDetectors := List.get_mem _ _
  have hblock : returningBlock.Padded (returningBlock.withField "id" (.scalar (.nat 7))) :=
    .withField (by decide) (by decide)
  have hpadded : root.Padded root' :=
    .mk (.cons (.mk (.child (.some hblock))) .nil) (by decide)
  have hroot : d.detect (f.withTree root) = .hits [{ range := ⟨14, 20, some 0⟩ }] := by
    decide +kernel
  exact ⟨hd, hpadded, hroot,
    (structuralDetectors_ignorePadding.2 d hd f root root' hpadded).trans hroot⟩

end Detector

end SolidityScan
