/-
# Texts of trees

The text of a tree is first checked for the number of brackets that it has open at the same time,
and only then read and measured as a tree.  The first limit leaves the decision to the second.  A
node below another one costs two brackets at most, its own and that of the array that holds it; what
is left of the limit is for the root, for a wrapper around it, and for the scalars.

* `Json.ScalarsNest` : a bound on the depth of what holds no nodes;
* `SyntaxNode.depth_le_of_readable` : how deeply a value nests that can be read as a tree;
* `SyntaxNode.parseTreeJson_of_readable` : the first limit turns no text of such a value away;
* `SourceFile.walk_of_withTreeText` : what was read from a text is walked to its end.
-/
import SolidityScan.Proofs.Json.Nesting
import SolidityScan.Proofs.Tree.Nodes
import SolidityScan.Proofs.Tree.Reading
import SolidityScan.Source.File

namespace SolidityScan

/-! ## Scalars -/

namespace Json

/-- As the value of a field it holds no nodes: it is neither a node nor a sequence of nodes. -/
def IsScalar (v : Json) : Prop :=
  ¬ v.isNode = true ∧ ∀ items, v = arr items → ¬ isNodeSequence items = true

/-- The scalars among the fields of all nodes of the value nest at most `k` deep. -/
def ScalarsNest (k : Nat) (v : Json) : Prop :=
  ∀ path w, v.at? path = some w → ∀ f ∈ w.otherFields, f.2.IsScalar → f.2.depth ≤ k

theorem scalarsNest_iff {k : Nat} {v : Json} :
    v.ScalarsNest k ↔ (∀ f ∈ v.otherFields, f.2.IsScalar → f.2.depth ≤ k) ∧
      ∀ f ∈ v.otherFields, ∀ w, some w ∈ f.2.slots → w.ScalarsNest k := by
  constructor
  · intro h
    refine ⟨h [] v rfl, fun f hf w hw path u hu => ?_⟩
    obtain ⟨s, hs⟩ := exists_step?_iff.2 ⟨f, hf, hw⟩
    exact h (s :: path) u (at?_cons_eq_some_iff.2 ⟨w, hs, hu⟩)
  · rintro ⟨hscalars, hslots⟩ path u hu
    cases path with
    | nil =>
      cases hu
      exact hscalars
    | cons s path =>
      obtain ⟨w, hs, hu⟩ := at?_cons_eq_some_iff.1 hu
      obtain ⟨f, hf, hw⟩ := exists_step?_iff.1 ⟨s, hs⟩
      exact hslots f hf w hw path u hu

/-! ## Depth and nodes -/

theorem depth_of_isGap {v : Json} (h : v.isGap = true) : v.depth = 0 := by
  cases v <;> first | rfl | cases h

/-- A field nests within a bound if its nodes, or else itself as a scalar, leave room for an
array. -/
theorem depth_le_of_slots {k s : Nat} {v : Json} (hs : 1 ≤ s) (hsk : s ≤ k)
    (hscalar : v.IsScalar → v.depth ≤ s) (hslots : ∀ w, some w ∈ v.slots → w.depth < k) :
    v.depth ≤ k := by
  by_cases hnode : v.isNode = true
  · have hlt := hslots v (by rw [slots_of_isNode hnode]; exact List.mem_singleton_self _)
    exact Nat.le_of_lt hlt
  · by_cases hsequence : ∃ items, v = arr items ∧ isNodeSequence items = true
    · obtain ⟨items, rfl, hitems⟩ := hsequence
      rw [slots_of_isNodeSequence hitems] at hslots
      have hle : depthOfItems items ≤ k - 1 := by
        refine depthOfItems_le_iff.2 fun w hw => ?_
        rcases gap_or_node_of_isNodeSequence hitems w hw with hgap | hwnode
        · rw [depth_of_isGap hgap]
          exact Nat.zero_le _
        · have hlt := hslots w (List.mem_map.2 ⟨w, hw, if_pos hwnode⟩)
          omega
      rw [depth]
      omega
    · refine Nat.le_trans (hscalar ⟨hnode, ?_⟩) hsk
      intro items hv hitems
      exact hsequence ⟨items, hv, hitems⟩

/-- In an object with its keys in order every field is found under its key. -/
theorem field?_of_mem {fields : List (String × Json)} (h : Ascending fields) {f : String × Json}
    (hf : f ∈ fields) : (obj fields).field? f.1 = some f.2 :=
  (lookup_eq_some_iff_mem h.nodup).2 hf

/-- The kind and the range of a sound node do not nest. -/
theorem IsSound.depth_eq_zero {fields : List (String × Json)} (hsound : (obj fields).IsSound)
    (h : Ascending fields) {f : String × Json} (hf : f ∈ fields)
    (hkey : f.1 = kindKey ∨ f.1 = rangeKey) : f.2.depth = 0 := by
  have hfield := field?_of_mem h hf
  rcases hkey with hkind | hrange
  · obtain ⟨text, htext⟩ := hsound.kind
    rw [hkind, htext] at hfield
    rw [← Option.some.inj hfield]
    rfl
  · rw [hrange] at hfield
    obtain ⟨text, _, htext, -⟩ := hsound.range _ hfield
    rw [htext]
    rfl

/-- A sound node is one level above its fields, of which the kind and the range do not count. -/
theorem depth_le_of_children {k s : Nat} {v : Json} (hs : 1 ≤ s) (hsk : s ≤ k) (hsound : v.IsSound)
    (hordered : v.Ordered) (hscalars : ∀ f ∈ v.otherFields, f.2.IsScalar → f.2.depth ≤ s)
    (hchildren : ∀ f ∈ v.otherFields, ∀ w, some w ∈ f.2.slots → w.depth < k) : v.depth ≤ k + 1 := by
  cases hordered with
  | null | bool _ | num _ | str _ | arr _ =>
    obtain ⟨text, htext⟩ := hsound.kind
    cases htext
  | @obj fields hascending _ =>
    have hfields : depthOfFields fields ≤ k := by
      refine depthOfFields_le_iff.2 fun f hf => ?_
      by_cases hkey : f.1 = kindKey ∨ f.1 = rangeKey
      · have hzero := hsound.depth_eq_zero hascending hf hkey
        omega
      · have hother : f ∈ (obj fields).otherFields :=
          List.mem_filter.2 ⟨hf, decide_eq_true (not_or.1 hkey)⟩
        exact depth_le_of_slots hs hsk (hscalars f hother) (hchildren f hother)
    rw [depth]
    omega

end Json

namespace SyntaxNode

/-- A value that can be read as a tree nests at most two levels for each level of nodes below it,
besides its own level and those of its scalars. -/
theorem depth_le_of_readable {limit s : Nat} (hs : 1 ≤ s) (n : Nat) {depth : Nat} {v : Json}
    (hn : limit ≤ depth + n) (hread : Readable limit depth v) (hordered : v.Ordered)
    (hscalars : v.ScalarsNest s) : v.depth ≤ 2 * n + s + 1 := by
  induction n generalizing depth v with
  | zero =>
    obtain ⟨⟨-, hsound⟩, hslots⟩ := readable_iff.1 hread
    refine Json.depth_le_of_children hs (by omega) hsound hordered
      (Json.scalarsNest_iff.1 hscalars).1 ?_
    -- at the limit there is no room for a node below
    intro f hf w hw
    obtain ⟨⟨hdepth, -⟩, -⟩ := readable_iff.1 (hslots f hf w hw)
    omega
  | succ n ih =>
    obtain ⟨⟨-, hsound⟩, hslots⟩ := readable_iff.1 hread
    obtain ⟨hfields, hbelow⟩ := Json.scalarsNest_iff.1 hscalars
    refine Json.depth_le_of_children hs (by omega) hsound hordered hfields fun f hf w hw => ?_
    have hword : w.Ordered := (hordered.of_mem_otherFields hf).slot hw
    have hle := ih (by omega) (hslots f hf w hw) hword (hbelow f hf w hw)
    omega

/-! ## Wrappers -/

/-- The value is the tree, or an object that holds nothing but the tree. -/
def Wraps (v w : Json) : Prop :=
  w = v ∨ w = .obj [("ast", v)]

/-- The tree is found in its wrapper. -/
theorem Wraps.treeValue {v w : Json} (h : Wraps v w) (hv : v.isNode = true) :
    SourceFile.treeValue w = v := by
  unfold SourceFile.treeValue
  rcases h with rfl | rfl
  · split
    · exact if_pos hv
    · rfl
  · rfl

theorem Wraps.ordered {v w : Json} (h : Wraps v w) (hw : w.Ordered) : v.Ordered := by
  rcases h with rfl | rfl
  · exact hw
  · cases hw with
    | obj _ hvalues => exact hvalues ("ast", v) (List.mem_singleton_self _)

/-- A wrapper adds at most one level. -/
theorem Wraps.depth_le {v w : Json} (h : Wraps v w) : w.depth ≤ v.depth + 1 := by
  rcases h with rfl | rfl
  · exact Nat.le_succ _
  · rw [Json.depth, Json.depthOfFields, Json.depthOfFields, Nat.max_zero]

/-! ## Trees in arrays -/

open JsonText (Spells Blank blank_nil)

/-- The characters spell the value without blanks around it and without repeated keys. -/
def IsSpelling (cs : List Char) (v : Json) : Prop :=
  ∃ t, Spells (.value t) cs ∧ t.KeysDistinct ∧ t.value? = some v

/-- Brackets around a value. -/
def inArray (cs : List Char) : List Char :=
  '[' :: (cs ++ [']'])

theorem IsSpelling.inArray {cs : List Char} {v : Json} (h : IsSpelling cs v) :
    IsSpelling (inArray cs) (.arr [v]) := by
  obtain ⟨t, hspells, hkeys, hvalue⟩ := h
  refine ⟨.array [t], .array (.lastItem hspells.element_of_value), .array (by simpa using hkeys),
    ?_⟩
  rw [JsonText.value?, JsonText.values?, JsonText.values?, hvalue]
  rfl

/-- The characters between its quotes spell the name. -/
def IsName (ks : List Char) (name : String) : Prop :=
  ∃ parts, StringPart.Spells parts ks ∧ StringPart.string? parts = some name

/-- Whether characters are a name can be computed by reading them. -/
theorem isName_of_read {ks : List Char} {name : String}
    (h : (JsonText.stringParts? (ks ++ ['"'])).map
      (fun read => (StringPart.string? read.1, read.2)) = some (some name, [])) :
    IsName ks name := by
  obtain ⟨⟨parts, rest⟩, hparts, heq⟩ := Option.map_eq_some_iff.1 h
  obtain ⟨hname, rfl⟩ := Prod.mk.inj heq
  obtain ⟨ks', hspells, hks⟩ := JsonText.spells_of_stringParts? hparts
  obtain rfl : ks' = ks := (List.append_cancel_right hks).symm
  exact ⟨parts, hspells, hname⟩

/-- An object around a tree. -/
def inWrapper (cs : List Char) : List Char :=
  '{' :: ((['"', 'a', 's', 't', '"', ':'] ++ cs) ++ ['}'])

theorem IsSpelling.inWrapper {cs : List Char} {v : Json} (h : IsSpelling cs v) :
    IsSpelling (inWrapper cs) (.obj [("ast", v)]) := by
  obtain ⟨t, hspells, hkeys, hvalue⟩ := h
  have hname : IsName ['a', 's', 't'] "ast" := isName_of_read (by decide +kernel)
  obtain ⟨key, hkey, hname⟩ := hname
  have hmember := Spells.lastField (.mk blank_nil hkey blank_nil) hspells.element_of_value
  refine ⟨.object [(key, t)], .object hmember, ?_, ?_⟩
  · exact .object (List.nodup_singleton _) (by simpa using hkeys)
  · rw [JsonText.value?, JsonText.fields?, JsonText.fields?, hname, hvalue]
    rfl

/-- A node with one field besides its kind. -/
def block (v : Json) : Json :=
  .obj [("body", v), (kindKey, .str "Block")]

theorem orderFields_block (v : Json) : Json.orderFields [(kindKey, .str "Block"), ("body", v)] =
    [("body", v), (kindKey, .str "Block")] := by
  have hlt : "body" < kindKey := by decide +kernel
  change Json.insertField "body" v [(kindKey, .str "Block")] = _
  rw [Json.insertField, if_pos hlt]

/-- A text of such a node, with blanks and an escape. -/
def blockText (cs : List Char) : List Char :=
  '{' :: ((['"', 'n', 'o', 'd', 'e', 'T', 'y', 'p', 'e', '"', ':'] ++
    ([' ', '"', 'B', 'l', 'o', 'c', 'k', '"', '\n'] ++ ',' ::
      (['"', 'b', '\\', 'u', '0', '0', '6', 'F', 'd', 'y', '"', ':'] ++ cs))) ++ ['}'])

theorem IsSpelling.block {cs : List Char} {v : Json} (h : IsSpelling cs v) :
    IsSpelling (blockText cs) (block v) := by
  obtain ⟨t, hspells, hkeys, hvalue⟩ := h
  have hkind : IsName ['n', 'o', 'd', 'e', 'T', 'y', 'p', 'e'] kindKey :=
    isName_of_read (by decide +kernel)
  have hstring : IsName ['B', 'l', 'o', 'c', 'k'] "Block" := isName_of_read (by decide +kernel)
  have hbody : IsName ['b', '\\', 'u', '0', '0', '6', 'F', 'd', 'y'] "body" :=
    isName_of_read (by decide +kernel)
  obtain ⟨kind, hkind, hkindName⟩ := hkind
  obtain ⟨string, hstring, hstringName⟩ := hstring
  obtain ⟨body, hbody, hbodyName⟩ := hbody
  have hspace : Blank [' '] := List.forall_mem_singleton.2 rfl
  have hline : Blank ['\n'] := List.forall_mem_singleton.2 rfl
  have hlast := Spells.lastField (.mk blank_nil hbody blank_nil) hspells.element_of_value
  have hmembers := Spells.nextField (.mk blank_nil hkind blank_nil)
    (.element hspace (.string hstring) hline) hlast
  refine ⟨_, .object hmembers, .object ?_ ?_, ?_⟩
  · rw [List.map_cons, List.map_singleton, hkindName, hbodyName]
    decide
  · simpa using ⟨.string string, hkeys⟩
  · rw [JsonText.value?, JsonText.fields?, JsonText.fields?, JsonText.fields?, JsonText.value?,
      hkindName, hbodyName, hvalue, hstringName]
    exact congrArg (fun fields => some (Json.obj fields)) (orderFields_block v)

theorem otherFields_block (v : Json) : (block v).otherFields = [("body", v)] := rfl

theorem isSound_block (v : Json) : (block v).IsSound where
  kind := ⟨"Block", rfl⟩
  range := by
    intro r hr
    cases hr

/-- Arrays in an array. -/
def arrays : Nat → Json
  | 0 => .arr []
  | k + 1 => .arr [arrays k]

/-- A node with `n` others below it, each in an array, and nested arrays in the last of them. -/
def chain : Nat → Json
  | 0 => block (arrays 13)
  | n + 1 => block (.arr [chain n])

/-- A text of nested arrays. -/
def arraysText : Nat → List Char
  | 0 => ['[', ']']
  | k + 1 => inArray (arraysText k)

/-- A text of a chain of nodes. -/
def chainText : Nat → List Char
  | 0 => blockText (arraysText 13)
  | n + 1 => blockText (inArray (chainText n))

theorem isSpelling_arrays (k : Nat) : IsSpelling (arraysText k) (arrays k) := by
  induction k with
  | zero => exact ⟨.array [], .emptyArray blank_nil, .array nofun, rfl⟩
  | succ k ih => exact ih.inArray

/-- The text of a chain spells it. -/
theorem isSpelling_chain (n : Nat) : IsSpelling (chainText n) (chain n) := by
  induction n with
  | zero => exact (isSpelling_arrays 13).block
  | succ n ih => exact ih.inArray.block

/-- A chain has two levels for each of its blocks, and those of the arrays at its end. -/
theorem depth_chain (n : Nat) : (chain n).depth = 2 * n + 15 := by
  induction n with
  | zero => rfl
  | succ n ih =>
    simp only [chain, block, Json.depth, Json.depthOfFields, Json.depthOfItems, ih]
    omega

theorem isNode_chain (n : Nat) : (chain n).isNode = true := by
  cases n <;> rfl

theorem isNodeSequence_chain (n : Nat) : Json.isNodeSequence [chain n] = true := by
  simp [Json.isNodeSequence, isNode_chain]

theorem slots_chain (n : Nat) : (Json.arr [chain n]).slots = [some (chain n)] := by
  rw [Json.slots_of_isNodeSequence (isNodeSequence_chain n), Json.itemSlots, List.map_singleton,
    if_pos (isNode_chain n)]

/-- A chain that keeps to the limit is readable. -/
theorem readable_chain {limit : Nat} (n depth : Nat) (h : depth + n ≤ limit) :
    Readable limit depth (chain n) := by
  induction n generalizing depth with
  | zero =>
    refine readable_iff.2 ⟨⟨h, isSound_block _⟩, ?_⟩
    rw [chain, otherFields_block, List.forall_mem_singleton]
    exact slotsReadable_nil limit depth
  | succ n ih =>
    refine readable_iff.2 ⟨⟨by omega, isSound_block _⟩, ?_⟩
    rw [chain, otherFields_block, List.forall_mem_singleton, slots_chain, slotsReadable_cons]
    refine ⟨?_, slotsReadable_nil limit depth⟩
    rintro w ⟨⟩
    exact ih (depth + 1) (by omega)

theorem scalarsNest_chain (n : Nat) : (chain n).ScalarsNest 14 := by
  induction n with
  | zero =>
    refine Json.scalarsNest_iff.2 ?_
    rw [chain, otherFields_block, List.forall_mem_singleton, List.forall_mem_singleton]
    exact ⟨fun _ => Nat.le_refl 14, nofun⟩
  | succ n ih =>
    refine Json.scalarsNest_iff.2 ?_
    rw [chain, otherFields_block, List.forall_mem_singleton, List.forall_mem_singleton, slots_chain]
    refine ⟨fun hscalar => absurd (isNodeSequence_chain n) (hscalar.2 _ rfl), ?_⟩
    intro w hw
    cases List.mem_singleton.1 hw
    exact ih

/-! ## The limits -/

/-- **The limit on brackets turns no tree away that the limit on nodes lets pass.**  Any text of a
value that can be read as a tree, or of an object around it, is read in full, if no object of the
text repeats a key and the scalars in the tree nest at most 14 deep.  The file then has that
tree. -/
theorem parseTreeJson_of_readable {v w : Json} {root : SyntaxNode} {text : String}
    (hroot : ofJson maxTreeDepth v = .ok root) (hscalars : v.ScalarsNest 14)
    (hw : Wraps v w) (htext : Json.IsTextOf text w) :
    parseTreeJson text = .ok w ∧ ∀ f : SourceFile, f.withTreeText text = f.withTree root := by
  have hparse : Json.parse? text = some w := htext.parse?
  obtain ⟨hnode, hread⟩ := (decides_ofJson maxTreeDepth v).succeeds_iff.1 ⟨root, hroot⟩
  have hordered : v.Ordered := hw.ordered (Json.ordered_of_parse? hparse)
  have hdepth : v.depth ≤ 2 * maxTreeDepth + 14 + 1 :=
    depth_le_of_readable (by decide) maxTreeDepth (by omega) hread hordered hscalars
  have hnesting : ¬ maxJsonNesting < JsonText.nesting text := by
    have hle := hw.depth_le
    rw [htext.nesting]
    unfold maxJsonNesting
    omega
  have hok : parseTreeJson text = .ok w := by
    rw [parseTreeJson, if_neg hnesting, hparse]
  refine ⟨hok, fun f => ?_⟩
  rw [SourceFile.withTreeText, hok]
  change f.withTreeResult (ofJson maxTreeDepth (SourceFile.treeValue w)) = _
  rw [hw.treeValue hnode, hroot]
  rfl

/-- A tree that reaches down to the limit, each of its nodes in an array, with scalars that nest as
deeply as allowed and an object around it.  Its text has as many brackets open as the limit
allows. -/
theorem parseTreeJson_of_readable_deepest :
    let v := chain maxTreeDepth
    let text := String.ofList (inWrapper (chainText maxTreeDepth))
    Json.IsTextOf text (.obj [("ast", v)]) ∧ v.ScalarsNest 14 ∧
      JsonText.nesting text = maxJsonNesting ∧ ∃ root, ofJson maxTreeDepth v = .ok root ∧
        parseTreeJson text = .ok (.obj [("ast", v)]) ∧
        ∀ f : SourceFile, f.withTreeText text = f.withTree root := by
  intro v text
  have hread : Readable maxTreeDepth 0 v := readable_chain maxTreeDepth 0 (by omega)
  obtain ⟨root, hroot⟩ := (decides_ofJson maxTreeDepth v).succeeds_iff.2 ⟨isNode_chain _, hread⟩
  have hscalars : v.ScalarsNest 14 := scalarsNest_chain maxTreeDepth
  have htext : Json.IsTextOf text (.obj [("ast", v)]) := by
    obtain ⟨t, hspells, hkeys, hvalue⟩ := (isSpelling_chain maxTreeDepth).inWrapper
    refine ⟨t, ?_, hkeys, hvalue⟩
    rw [String.toList_ofList]
    exact hspells.element_of_value
  have hnesting : JsonText.nesting text = maxJsonNesting := by
    rw [htext.nesting, Json.depth, Json.depthOfFields, Json.depthOfFields, depth_chain]
    rfl
  exact ⟨htext, hscalars, hnesting, root, hroot,
    parseTreeJson_of_readable hroot hscalars (Or.inr rfl) htext⟩

end SyntaxNode

/-! ## Walking what was read -/

namespace SourceFile

/-- The tree within an ordered value is ordered. -/
theorem ordered_treeValue {v : Json} (h : v.Ordered) : (treeValue v).Ordered := by
  unfold treeValue
  split
  · next inner hinner =>
    split_ifs
    · exact h
    · cases h with
      | obj hkeys hvalues =>
        exact hvalues ("ast", inner) ((Json.lookup_eq_some_iff_mem hkeys.nodup).1 hinner)
      | _ => cases hinner
  · exact h

/-- **The tree of a file that was read from a text is walked to its end.**  Its fields are in order
and no node lies too deep, so that a walk meets every node once, in source order, and no fault. -/
theorem walk_of_withTreeText {f : SourceFile} {text : String} {root : SyntaxNode}
    (h : (f.withTreeText text).tree? = some root) :
    root.Ordered ∧ root.IsPreorder root.preorder ∧ root.Meets maxTreeDepth root.nodes none := by
  obtain ⟨v, hv, hread⟩ := tree?_withTreeText_eq_some_iff.1 h
  have hordered : root.Ordered :=
    SyntaxNode.ordered_of_ofJson (ordered_treeValue (Json.ordered_of_parseTreeJson hv)) hread
  have hshallow : root.Shallow := SyntaxNode.shallow_of_ofJson hread
  exact ⟨hordered, SyntaxNode.isPreorder_preorder hordered,
    SyntaxNode.meets_of_forall hshallow.length_le⟩

end SourceFile

end SolidityScan
