/-
# Rules on shifted trees

Text in front of a file shifts the whole tree: every node keeps its length and moves on by the same
number of bytes.  The order of siblings and the equality of ranges stay, so the detectors for trees
report the same hits, moved on by as much.

* `SyntaxNode.shift` : the tree with every offset increased;
* `SyntaxNode.shifting` : a tree and its shift look alike to rules.
-/
import SolidityScan.Proofs.Rules.Simulation

namespace SolidityScan

open List (Forall₂)

/-! ## Shifted trees -/

/-- The range that starts so many bytes later. -/
def SourceRange.shift (k : Nat) (r : SourceRange) : SourceRange :=
  { r with offset := r.offset + k }

theorem SourceRange.shift_injective (k : Nat) : Function.Injective (shift k) := by
  intro a b h
  simp only [shift, SourceRange.mk.injEq, Nat.add_right_cancel_iff] at h
  obtain ⟨hoffset, hlength, hfile⟩ := h
  cases a
  cases b
  simp_all

mutual

/-- The tree with every node so many bytes later. -/
def SyntaxNode.shift (k : Nat) : SyntaxNode → SyntaxNode
  | .mk kind src fields => .mk kind (src.shift k) (SyntaxNode.shiftFields k fields)

/-- The fields with every node below them so many bytes later. -/
def SyntaxNode.shiftFields (k : Nat) : List (String × Field) → List (String × Field)
  | [] => []
  | (name, f) :: rest => (name, f.shift k) :: SyntaxNode.shiftFields k rest

/-- The field with every node below it so many bytes later. -/
def Field.shift (k : Nat) : Field → Field
  | .child node => .child (SyntaxNode.shiftSlot k node)
  | .sequence slots => .sequence (SyntaxNode.shiftSlots k slots)
  | .scalar value => .scalar value

/-- The slot with every node below it so many bytes later. -/
def SyntaxNode.shiftSlot (k : Nat) : Option SyntaxNode → Option SyntaxNode
  | none => none
  | some n => some (n.shift k)

/-- The slots with every node below them so many bytes later. -/
def SyntaxNode.shiftSlots (k : Nat) : List (Option SyntaxNode) → List (Option SyntaxNode)
  | [] => []
  | slot :: rest => SyntaxNode.shiftSlot k slot :: SyntaxNode.shiftSlots k rest

end

namespace SyntaxNode

/-- The second tree is the first one, shifted. -/
def Shifted (k : Nat) (n m : SyntaxNode) : Prop :=
  m = n.shift k

theorem shifted_slot (k : Nat) (slot : Option SyntaxNode) :
    Option.Rel (Shifted k) slot (shiftSlot k slot) := by
  cases slot with
  | none => exact .none
  | some n => exact .some rfl

theorem shifted_slots (k : Nat) (slots : List (Option SyntaxNode)) :
    Forall₂ (Option.Rel (Shifted k)) slots (shiftSlots k slots) := by
  induction slots with
  | nil => exact .nil
  | cons slot rest ih => exact .cons (shifted_slot k slot) ih

theorem matches_shift (k : Nat) (f : Field) : f.Matches (Shifted k) (f.shift k) := by
  cases f with
  | child node => exact .child (shifted_slot k node)
  | sequence slots => exact .sequence (shifted_slots k slots)
  | scalar value => exact .scalar value

theorem alike_lookup_shiftFields (k : Nat) (name : String) (fields : List (String × Field)) :
    Field.Alike (Shifted k) name (fields.lookup name) ((shiftFields k fields).lookup name) := by
  induction fields with
  | nil => exact .absent
  | cons p rest ih =>
    obtain ⟨other, f⟩ := p
    rw [shiftFields, List.lookup_cons, List.lookup_cons]
    split
    · exact .present (matches_shift k f)
    · exact ih

theorem shifted_nodes (k : Nat) (fields : List (String × Field)) :
    Forall₂ (Shifted k) (fields.flatMap (·.2.nodes))
      ((shiftFields k fields).flatMap (·.2.nodes)) := by
  induction fields with
  | nil => exact .nil
  | cons p rest ih => exact List.rel_append (matches_shift k p.2).nodes ih

/-- A tree and its shift look alike to rules. -/
def shifting (k : Nat) : Simulation where
  move := SourceRange.shift k
  Rel := Shifted k
  move_injective := SourceRange.shift_injective k
  offset_move_le_iff a b := Nat.add_le_add_iff_right
  kind := by
    rintro ⟨kind, src, fields⟩ _ rfl
    rfl
  src := by
    rintro ⟨kind, src, fields⟩ _ rfl
    rfl
  field? := by
    rintro ⟨kind, src, fields⟩ _ rfl name
    exact alike_lookup_shiftFields k name fields
  nodes := by
    rintro ⟨kind, src, fields⟩ _ rfl
    exact shifted_nodes k fields

end SyntaxNode

/-! ## Detectors -/

namespace Detector

/-- On a shifted tree, the detector has the same hits in the same order, moved on by as much, and
fails exactly where it fails on the tree itself. -/
def FollowsShift (d : Detector) : Prop :=
  ∀ (f : SourceFile) (root : SyntaxNode) (k : Nat),
    (∃ hits, d.detect (f.withTree root) = .hits hits ∧
        d.detect (f.withTree (root.shift k)) = .hits (hits.map fun hit =>
          { hit with range := { hit.range with offset := hit.range.offset + k } })) ∨
      ∃ fault, d.detect (f.withTree root) = .failed (.engine (.structural fault)) ∧
        d.detect (f.withTree (root.shift k)) =
          .failed (.engine (.structural (fault.move (SourceRange.shift k))))

/-- **The detectors for trees follow a shift.** -/
theorem structuralDetectors_followShift :
    Catalog.structuralDetectors.length = 17 ∧
      ∀ d ∈ Catalog.structuralDetectors, d.FollowsShift := by
  refine ⟨rfl, fun d hd f root k => ?_⟩
  exact (respects_structuralDetectors d hd).detect_cases (SyntaxNode.shifting k) rfl f

/-- A call of a member in two loops, one inside the other. -/
def nestedLoops : SyntaxNode :=
  let target : SyntaxNode := .mk "MemberAccess" ⟨5, 4, some 0⟩
    [("expression", .child (some (.mk "Identifier" ⟨5, 1, some 0⟩
      [("name", .scalar (.str "token"))]))), ("memberName", .scalar (.str "pay"))]
  let call : SyntaxNode := .mk "FunctionCall" ⟨5, 6, some 0⟩ [("expression", .child (some target))]
  .mk "WhileStatement" ⟨1, 12, some 0⟩ [("body", .child (some
    (.mk "ForStatement" ⟨3, 9, some 0⟩ [("body", .sequence [none, some call])])))]

theorem structuralDetectors_followShift_nestedLoops :
    let d := Catalog.structuralDetectors.get ⟨7, by decide⟩
    let f : SourceFile := { path := "a.sol", text := "" }
    d ∈ Catalog.structuralDetectors ∧
      d.detect (f.withTree nestedLoops) = .hits [{ range := ⟨5, 6, some 0⟩ }] ∧
        d.detect (f.withTree (nestedLoops.shift 100)) = .hits [{ range := ⟨105, 6, some 0⟩ }] := by
  intro d f
  have hd : d ∈ Catalog.structuralDetectors := List.get_mem _ _
  have hroot : d.detect (f.withTree nestedLoops) = .hits [{ range := ⟨5, 6, some 0⟩ }] := by
    decide +kernel
  refine ⟨hd, hroot, ?_⟩
  rcases structuralDetectors_followShift.2 d hd f nestedLoops 100 with
    ⟨hits, hhits, hshift⟩ | ⟨fault, hfailed, _⟩
  · rw [hroot] at hhits
    cases hhits
    exact hshift
  · rw [hroot] at hfailed
    cases hfailed

end Detector

end SolidityScan
