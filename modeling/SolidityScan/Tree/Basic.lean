/-
# Syntax trees

A syntax tree of nodes with a kind, a source range and named fields.  A field holds at most one
child, a sequence of children with gaps, or a scalar.  The fields of a node are in ascending order
of their names.
-/
import SolidityScan.Json.Basic
import SolidityScan.Source.Range

namespace SolidityScan

mutual

/-- A node of a syntax tree. -/
inductive SyntaxNode where
  | mk (kind : String) (src : SourceRange) (fields : List (String × Field))

/-- What a node holds under one name. -/
inductive Field where
  | child (node : Option SyntaxNode)
  | sequence (slots : List (Option SyntaxNode))
  | scalar (value : Json)

end

namespace Field

/-- The nodes that the field holds, in order. -/
def nodes : Field → List SyntaxNode
  | child node => node.toList
  | sequence slots => slots.filterMap id
  | scalar _ => []

end Field

namespace SyntaxNode

/-- The kind of construct. -/
def kind : SyntaxNode → String
  | mk kind _ _ => kind

/-- The source range. -/
def src : SyntaxNode → SourceRange
  | mk _ src _ => src

/-- The fields, by name. -/
def fields : SyntaxNode → List (String × Field)
  | mk _ _ fields => fields

/-- A node without fields. -/
def leaf (kind : String) (src : SourceRange) : SyntaxNode :=
  mk kind src []

instance : Inhabited SyntaxNode :=
  ⟨leaf "" ⟨0, 0, none⟩⟩

/-- The node with one more field; a field of the same name is replaced. -/
def withField (n : SyntaxNode) (name : String) (f : Field) : SyntaxNode :=
  mk n.kind n.src (Json.insertField name f n.fields)

/-- The node is of the given kind. -/
def is (n : SyntaxNode) (kind : String) : Bool :=
  n.kind == kind

/-! ## Fields by name -/

/-- The field with the given name. -/
def field? (n : SyntaxNode) (name : String) : Option Field :=
  n.fields.lookup name

/-- The only child under a name. -/
def child? (n : SyntaxNode) (name : String) : Option SyntaxNode :=
  match n.field? name with
  | some (.child node) => node
  | _ => none

/-- The children under a name, whether it holds a sequence or one child. -/
def children (n : SyntaxNode) (name : String) : List SyntaxNode :=
  match n.field? name with
  | some f => f.nodes
  | none => []

/-- The slots of the sequence under a name, gaps among them. -/
def slots (n : SyntaxNode) (name : String) : List (Option SyntaxNode) :=
  match n.field? name with
  | some (.sequence slots) => slots
  | _ => []

/-- The scalar under a name. -/
def scalar? (n : SyntaxNode) (name : String) : Option Json :=
  match n.field? name with
  | some (.scalar value) => some value
  | _ => none

/-- The string under a name. -/
def string? (n : SyntaxNode) (name : String) : Option String :=
  (n.scalar? name).bind Json.str?

/-- The boolean under a name. -/
def flag? (n : SyntaxNode) (name : String) : Option Bool :=
  (n.scalar? name).bind Json.bool?

/-! ## Children of a node -/

/-- All children in order of their offsets; children at the same offset keep the order of field
names and of sequences. -/
def childNodes (n : SyntaxNode) : List SyntaxNode :=
  (n.fields.flatMap (·.2.nodes)).mergeSort fun a b => decide (a.src.offset ≤ b.src.offset)

end SyntaxNode

/-! ## The number of nodes -/

mutual

/-- The number of nodes of a tree. -/
def SyntaxNode.size : SyntaxNode → Nat
  | .mk _ _ fields => 1 + SyntaxNode.sizeOfFields fields

/-- The number of nodes under the fields of a node. -/
def SyntaxNode.sizeOfFields : List (String × Field) → Nat
  | [] => 0
  | (_, f) :: rest => f.size + SyntaxNode.sizeOfFields rest

/-- The number of nodes under a field. -/
def Field.size : Field → Nat
  | .child node => SyntaxNode.sizeOfSlot node
  | .sequence slots => SyntaxNode.sizeOfSlots slots
  | .scalar _ => 0

/-- The number of nodes under a slot. -/
def SyntaxNode.sizeOfSlot : Option SyntaxNode → Nat
  | none => 0
  | some n => n.size

/-- The number of nodes under the slots of a sequence. -/
def SyntaxNode.sizeOfSlots : List (Option SyntaxNode) → Nat
  | [] => 0
  | slot :: rest => SyntaxNode.sizeOfSlot slot + SyntaxNode.sizeOfSlots rest

end

namespace SyntaxNode

/-- The number of nodes of a list of trees. -/
def sizeOfAll : List SyntaxNode → Nat
  | [] => 0
  | n :: rest => n.size + sizeOfAll rest

theorem sizeOfAll_append (ns ms : List SyntaxNode) :
    sizeOfAll (ns ++ ms) = sizeOfAll ns + sizeOfAll ms := by
  induction ns with
  | nil => simp [sizeOfAll]
  | cons n rest ih =>
    rw [List.cons_append, sizeOfAll, sizeOfAll, ih]
    omega

theorem sizeOfAll_perm {ns ms : List SyntaxNode} (h : ns.Perm ms) :
    sizeOfAll ns = sizeOfAll ms := by
  induction h with
  | nil => rfl
  | cons n _ ih => rw [sizeOfAll, sizeOfAll, ih]
  | swap n m rest =>
    simp only [sizeOfAll]
    omega
  | trans _ _ ih₁ ih₂ => rw [ih₁, ih₂]

theorem sizeOfSlots_eq (slots : List (Option SyntaxNode)) :
    sizeOfSlots slots = sizeOfAll (slots.filterMap id) := by
  induction slots with
  | nil => simp [sizeOfSlots, sizeOfAll]
  | cons slot rest ih => cases slot <;> simp_all [sizeOfSlots, sizeOfSlot, sizeOfAll]

theorem size_field_eq (f : Field) : f.size = sizeOfAll f.nodes := by
  cases f with
  | child node => cases node <;> simp [Field.size, Field.nodes, sizeOfSlot, sizeOfAll]
  | sequence slots => simp [Field.size, Field.nodes, sizeOfSlots_eq]
  | scalar _ => simp [Field.size, Field.nodes, sizeOfAll]

theorem sizeOfFields_eq (fields : List (String × Field)) :
    sizeOfFields fields = sizeOfAll (fields.flatMap (·.2.nodes)) := by
  induction fields with
  | nil => simp [sizeOfFields, sizeOfAll]
  | cons f rest ih => simp_all [sizeOfFields, size_field_eq, sizeOfAll_append]

/-- A node has one node more than its children together. -/
theorem size_eq (n : SyntaxNode) : n.size = 1 + sizeOfAll n.childNodes := by
  cases n with
  | mk kind src fields =>
    have h : (childNodes (mk kind src fields)).Perm (fields.flatMap (·.2.nodes)) :=
      List.mergeSort_perm _ _
    rw [size, sizeOfFields_eq, sizeOfAll_perm h]

end SyntaxNode

end SolidityScan
