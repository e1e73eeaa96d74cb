/-
# Batches of source files

The files of a scan in the order in which they were accepted, and the inputs that were not.  Paths
are unique among the accepted files, and every accepted file has a number.
-/
import SolidityScan.Source.File
import SolidityScan.Source.Folder

namespace SolidityScan

/-- An input that was not accepted, and the reason: an input error for its path. -/
structure RejectedInput where
  path : String
  error : EngineError
  isInput : ∃ fault, error = .input path fault
deriving DecidableEq, Repr

/-- The files of a scan, and the inputs left out.  No two files have the same path, and every file
has a number. -/
@[ext] structure Batch where
  files : List SourceFile := []
  rejected : List RejectedInput := []
  paths_nodup : (files.map (·.path)).Nodup := by simp
  isNumbered : ∀ f ∈ files, f.sourceId.isSome := by simp

namespace Batch

/-! ## Adding files -/

/-- A file with the given path was accepted. -/
def hasPath (b : Batch) (path : String) : Bool :=
  b.files.any fun f => decide (f.path = path)

theorem hasPath_iff {b : Batch} {path : String} :
    b.hasPath path = true ↔ path ∈ b.files.map (·.path) := by
  simp [hasPath]

/-- The file under its own number, or else under the number of the files before it. -/
def numbered (b : Batch) (f : SourceFile) : SourceFile :=
  { f with sourceId := some (f.sourceId.getD b.files.length) }

/-- The batch with one more file, the path of which is not taken. -/
def append (b : Batch) (f : SourceFile) (hnew : b.hasPath f.path ≠ true) : Batch where
  files := b.files ++ [b.numbered f]
  rejected := b.rejected
  paths_nodup := by
    rw [List.map_append, List.nodup_append]
    refine ⟨b.paths_nodup, List.pairwise_singleton _ _, fun path hpath other hother => ?_⟩
    rw [List.map_singleton, List.mem_singleton] at hother
    rintro rfl
    exact hnew (hasPath_iff.2 (hother ▸ hpath))
  isNumbered := List.forall_mem_append.2
    ⟨b.isNumbered, List.forall_mem_singleton.2 rfl⟩

/-- Offers a file to a batch: the batch afterwards, and the error if the path of the file is already
taken. -/
def offer (b : Batch) (f : SourceFile) : Batch × Except EngineError Unit :=
  if h : b.hasPath f.path = true then
    (b, .error (.input f.path .duplicatePath))
  else
    (b.append f h, .ok ())

/-- A file is refused for its path alone. -/
theorem offer_error {b b' : Batch} {f : SourceFile} {e : EngineError}
    (h : b.offer f = (b', .error e)) : e = .input f.path .duplicatePath := by
  unfold offer at h
  split at h
  · cases h
    rfl
  · cases h

/-- The batch with one more file, or the error for which the file is refused. -/
def add (b : Batch) (f : SourceFile) : Except EngineError Batch :=
  match b.offer f with
  | (b', .ok ()) => .ok b'
  | (_, .error e) => .error e

/-- Records an input that is left out. -/
def reject (b : Batch) (path : String) (error : EngineError)
    (isInput : ∃ fault, error = .input path fault) : Batch :=
  { b with rejected := b.rejected ++ [{ path, error, isInput }] }

/-- Adds a file given by its bytes and the text of its tree, or records why it is left out.  The
second component tells whether it was accepted. -/
def addBytes (b : Batch) (path : String) (bytes : List UInt8) (tree : Option String) :
    Batch × Bool :=
  match hread : SourceFile.ofBytes path bytes with
  | .error e => (b.reject path e (SourceFile.ofBytes_error hread), false)
  | .ok f =>
    have hpath : (tree.elim f f.withTreeText).path = path := by
      cases tree with
      | none => exact SourceFile.ofBytes_path hread
      | some text => exact (f.withTreeText_path text).trans (SourceFile.ofBytes_path hread)
    match hoffer : b.offer (tree.elim f f.withTreeText) with
    | (b', .ok ()) => (b', true)
    | (b', .error e) => (b'.reject path e ⟨_, hpath ▸ offer_error hoffer⟩, false)

/-- Adds a file of the working folder, or records why it is left out.  A tree that cannot be read
counts as not given. -/
def addFromFolder (b : Batch) (folder : Folder) (path : String) (treePath : Option String) :
    Batch × Bool :=
  match folder.readBytes path with
  | .error fault => (b.reject path (.input path (.unreadable fault)) ⟨_, rfl⟩, false)
  | .ok bytes => b.addBytes path bytes (treePath.bind fun p => (folder.readText p).toOption)

/-! ## Finding files -/

/-- The first file with the given number. -/
def bySourceId? (b : Batch) (id : Nat) : Option SourceFile :=
  b.files.find? fun f => decide (f.sourceId = some id)

/-- The file that a range is in, or `default` if the batch does not know its number. -/
def fileFor (b : Batch) (range : SourceRange) (default : SourceFile) : SourceFile :=
  (range.file.bind b.bySourceId?).getD default

/-- The position of the start of a range. -/
def resolve (b : Batch) (range : SourceRange) (default : SourceFile) :
    Except EngineError Position :=
  (b.fileFor range default).resolve range.offset

end Batch

end SolidityScan
