/-
# Working folders

The files that can be read by name.  A path is followed name by name from the working folder, or
from the root if it starts with a slash; of the folders around the working folder nothing but their
existence is known.
-/
import SolidityScan.Error
import SolidityScan.Text.Slice

namespace SolidityScan

/-- What a path leads to. -/
inductive FolderEntry where
  | file (bytes : List UInt8)
  | folder
deriving DecidableEq, Repr

/-- A working folder: the entries under their names, the latest first. -/
structure Folder where
  entries : List (List String × FolderEntry) := []
deriving Repr

/-- A place on the way along a path: an entry of the working folder, which has no names itself, or
one of the folders around it. -/
inductive FolderPlace where
  | inside (names : List String)
  | around
deriving DecidableEq, Repr

namespace Folder

/-- The longest name of an entry, in bytes. -/
def longestName : Nat := 255

/-- The longest path, in bytes. -/
def longestPath : Nat := 4095

/-- The entry at a place. -/
def entry? (f : Folder) : FolderPlace → Option FolderEntry
  | .inside [] | .around => some .folder
  | .inside names => f.entries.lookup names

/-- The folder above a place. -/
def above : FolderPlace → FolderPlace
  | .inside [] | .around => .around
  | .inside names => .inside names.dropLast

/-- Follows one name from a folder.  An empty name and a single dot stay there, and two dots lead
to the folder above. -/
def follow (f : Folder) (place : FolderPlace) (name : String) : Except FileFault FolderPlace :=
  match f.entry? place with
  | none => .error .notFound
  | some (.file _) => .error .notFolder
  | some .folder =>
    if name = "" ∨ name = "." then .ok place
    else if name = ".." then .ok (above place)
    else if longestName < name.utf8ByteSize then .error .nameTooLong
    else
      match place with
      | .around => .error .notFound
      | .inside names =>
        if (f.entries.lookup (names ++ [name])).isSome then .ok (.inside (names ++ [name]))
        else .error .notFound

/-- The names along a path, with an empty one on either side of a slash that has no neighbour. -/
def names (path : String) : List String :=
  (Text.split '/' path.toList).map String.ofList

/-- The place where a path starts. -/
def start (path : String) : FolderPlace :=
  if path.toList.head? = some '/' then .around else .inside []

/-- The place that a path leads to. -/
def locate (f : Folder) (path : String) : Except FileFault FolderPlace :=
  if path.toList.contains '\x00' then .error .nulInName
  else if path.isEmpty then .error .notFound
  else if longestPath < path.utf8ByteSize then .error .nameTooLong
  else (names path).foldlM f.follow (start path)

/-- The folder with one more entry, if the path leads into a folder where its last name is not that
of a folder. -/
def put (f : Folder) (path : String) (entry : FolderEntry) : Folder :=
  let along := (names path).filter fun name => name != "" && name != "."
  match along.getLast?, along.dropLast.foldlM f.follow (start path) with
  | some name, .ok (.inside parent) =>
    let place := parent ++ [name]
    if f.entry? (.inside parent) = some .folder ∧ f.entry? (.inside place) ≠ some .folder then
      { f with entries := (place, entry) :: f.entries }
    else
      f
  | _, _ => f

/-- The bytes of the file under a path. -/
def readBytes (f : Folder) (path : String) : Except FileFault (List UInt8) := do
  match f.entry? (← f.locate path) with
  | some (.file bytes) => return bytes
  | some .folder => throw .isFolder
  | none => throw .notFound

/-- The text of the file under a path. -/
def readText (f : Folder) (path : String) : Except FileFault String := do
  match Utf8.decode (← f.readBytes path) with
  | .ok text => return text
  | .error _ => throw .notText

end Folder

end SolidityScan
