/-
# Files and their numbers

Files of a batch have distinct paths, but not always distinct numbers: a file may bring its own, and
one that does not takes the number of the files before it, whether or not another file has it
already.  A number leads to the first file that has it, and a range to the file that its number
leads to.

* `Batch.eq_of_path_eq` : a file of a batch is known by its path;
* `Batch.bySourceId?_eq_some_iff` : the file that a number leads to;
* `Batch.addresses_fileFor` : the file that a range is in;
* `Batch.isFirst_holder` : the number of a file leads to the first file that has it.
-/
import Mathlib.Data.List.Nodup
import SolidityScan.Source.Batch

namespace SolidityScan.Batch

/-! ## Paths -/

/-- Files of a batch with the same path are the same file. -/
theorem eq_of_path_eq (b : Batch) {f g : SourceFile} (hf : f ∈ b.files) (hg : g ∈ b.files)
    (h : f.path = g.path) : f = g :=
  List.inj_on_of_nodup_map b.paths_nodup hf hg h

/-! ## Numbers -/

/-- The file is in the batch, and no file before it has its number. -/
def IsFirst (b : Batch) (f : SourceFile) : Prop :=
  ∃ front back, b.files = front ++ f :: back ∧ ∀ g ∈ front, g.sourceId ≠ f.sourceId

theorem IsFirst.mem {b : Batch} {f : SourceFile} (h : b.IsFirst f) : f ∈ b.files := by
  obtain ⟨front, back, hfiles, -⟩ := h
  rw [hfiles]
  exact List.mem_append_right front List.mem_cons_self

/-- A number leads to the first file that has it. -/
theorem bySourceId?_eq_some_iff {b : Batch} {f : SourceFile} {id : Nat} :
    b.bySourceId? id = some f ↔ f.sourceId = some id ∧ b.IsFirst f := by
  unfold bySourceId? IsFirst
  rw [List.find?_eq_some_iff_append]
  constructor
  · rintro ⟨hid, front, back, hfiles, hfront⟩
    have hid : f.sourceId = some id := of_decide_eq_true hid
    refine ⟨hid, front, back, hfiles, ?_⟩
    intro g hg
    rw [hid]
    simpa using hfront g hg
  · rintro ⟨hid, front, back, hfiles, hfront⟩
    refine ⟨decide_eq_true hid, front, back, hfiles, ?_⟩
    intro g hg
    rw [← hid]
    simpa using hfront g hg

/-- A number leads to a file of the batch that has it. -/
theorem of_bySourceId?_eq_some {b : Batch} {f : SourceFile} {id : Nat}
    (h : b.bySourceId? id = some f) : f ∈ b.files ∧ f.sourceId = some id := by
  obtain ⟨hid, hfirst⟩ := bySourceId?_eq_some_iff.1 h
  exact ⟨hfirst.mem, hid⟩

/-! ## Ranges -/

/-- The target is the file that a range is in: the first file with the number of the range, or the
default if the range has no number that a file has. -/
def Addresses (b : Batch) (range : SourceRange) (default target : SourceFile) : Prop :=
  (∃ id, range.file = some id ∧ target.sourceId = some id ∧ b.IsFirst target) ∨
    (∀ id, range.file = some id → ∀ g ∈ b.files, g.sourceId ≠ some id) ∧ target = default

theorem addresses_fileFor (b : Batch) (range : SourceRange) (f : SourceFile) :
    b.Addresses range f (b.fileFor range f) := by
  unfold fileFor
  cases hfound : range.file.bind b.bySourceId? with
  | some target =>
    obtain ⟨id, hid, htarget⟩ := Option.bind_eq_some_iff.1 hfound
    exact Or.inl ⟨id, hid, bySourceId?_eq_some_iff.1 htarget⟩
  | none =>
    refine Or.inr ⟨fun id hid g hg hgid => ?_, rfl⟩
    rw [hid, Option.bind_some, bySourceId?, List.find?_eq_none] at hfound
    exact hfound g hg (decide_eq_true hgid)

theorem fileFor_mem {b : Batch} {f : SourceFile} (hf : f ∈ b.files) (range : SourceRange) :
    b.fileFor range f ∈ b.files := by
  rcases b.addresses_fileFor range f with ⟨_, _, _, hfirst⟩ | ⟨_, hdefault⟩
  · exact hfirst.mem
  · rwa [hdefault]

/-! ## Files under their own numbers -/

/-- The file that the number of a file leads to. -/
def holder (b : Batch) (f : SourceFile) : SourceFile :=
  (f.sourceId.bind b.bySourceId?).getD f

theorem fileFor_range (b : Batch) (f : SourceFile) (offset length : Nat) :
    b.fileFor (f.range offset length) f = b.holder f := rfl

/-- The number of a file of a batch leads to the first file with that number. -/
theorem isFirst_holder {b : Batch} {f : SourceFile} (hf : f ∈ b.files) :
    b.IsFirst (b.holder f) := by
  obtain ⟨id, hid⟩ := Option.isSome_iff_exists.1 (b.isNumbered f hf)
  rcases b.addresses_fileFor (f.range 0 0) f with ⟨_, _, _, hfirst⟩ | ⟨hnone, -⟩
  · exact hfirst
  · exact absurd hid (hnone id hid f hf)

/-- The first file with a number is the one that its number leads to. -/
theorem holder_eq_self {b : Batch} {f : SourceFile} (h : b.IsFirst f) : b.holder f = f := by
  obtain ⟨id, hid⟩ := Option.isSome_iff_exists.1 (b.isNumbered f h.mem)
  unfold holder
  rw [hid, Option.bind_some, bySourceId?_eq_some_iff.2 ⟨hid, h⟩, Option.getD_some]

end SolidityScan.Batch
