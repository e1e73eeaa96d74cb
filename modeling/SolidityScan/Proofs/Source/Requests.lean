/-
# Requests to a batch

A batch answers one request after another: to take in a file, or to take in bytes with the text of a
tree.  The files that it holds after any number of requests are those that it accepted, in that
order, each under the number it came with or else under its place.  A request that is turned down
changes no file, and so it does not shift the numbers of the files after it.

* `offer_new`, `offer_taken` : a file is taken in, or refused for its path alone;
* `addBytes_eq` : bytes are taken in as the file of their text, or left out for one of two reasons;
* `files_serve` : what one request does to the files;
* `files_after` : the files after any number of requests.
-/
import Mathlib.Data.List.Nodup
import SolidityScan.Proofs.Text.Utf8
import SolidityScan.Source.Batch

namespace SolidityScan

namespace SourceFile

theorem withTreeResult_text (f : SourceFile) (r : Except TreeFault SyntaxNode) :
    (f.withTreeResult r).text = f.text ∧ (f.withTreeResult r).sourceId = f.sourceId := by
  cases r <;> exact ⟨rfl, rfl⟩

/-- Reading a tree leaves the text and the number as they are, whether it can be read or not. -/
theorem withTreeText_text (f : SourceFile) (text : String) :
    (f.withTreeText text).text = f.text ∧ (f.withTreeText text).sourceId = f.sourceId := by
  unfold withTreeText
  cases parseTreeJson text with
  | ok v => exact withTreeResult_text f _
  | error fault => exact ⟨rfl, rfl⟩

/-- The file of a text, with the tree that is read from the given text if there is one. -/
def offered (path text : String) (tree : Option String) : SourceFile :=
  tree.elim { path, text } (withTreeText { path, text })

theorem offered_spec (path text : String) (tree : Option String) :
    (offered path text tree).path = path ∧ (offered path text tree).text = text ∧
      (offered path text tree).sourceId = none := by
  unfold offered
  cases tree with
  | none => exact ⟨rfl, rfl, rfl⟩
  | some json =>
    obtain ⟨htext, hid⟩ := withTreeText_text { path, text } json
    exact ⟨withTreeText_path _ json, htext, hid⟩

end SourceFile

namespace Batch

/-! ## Requests -/

/-- A request to a batch. -/
inductive Request where
  /-- To take in a file; it does not matter whether the batch is kept in place or handed on. -/
  | file (f : SourceFile)
  /-- To take in bytes, with the text of a tree. -/
  | bytes (path : String) (content : List UInt8) (tree : Option String)

/-- The batch after a request, and whether it was accepted. -/
def serve (b : Batch) : Request → Batch × Bool
  | .file f => ((b.offer f).1, (b.offer f).2.isOk)
  | .bytes path content tree => b.addBytes path content tree

/-- The batch after all requests, from the empty one on. -/
def after (requests : List Request) : Batch :=
  requests.foldl (fun b r => (b.serve r).1) {}

/-- The file that a request brings; bytes that are no text bring none. -/
def Request.offer? : Request → Option SourceFile
  | .file f => some f
  | .bytes path content tree =>
    match Utf8.decode content with
    | .ok text => some (.offered path text tree)
    | .error _ => none

/-- The files accepted so far, with the file of one more request if its path is new. -/
def accept (files : List SourceFile) (r : Request) : List SourceFile :=
  match r.offer? with
  | some f => if f.path ∈ files.map (·.path) then files else files ++ [f]
  | none => files

/-- The files that requests bring and that are accepted, in order and as they were brought. -/
def accepted (requests : List Request) : List SourceFile :=
  requests.foldl accept []

/-- Files under the numbers they came with, or else under their places. -/
def number (files : List SourceFile) : List SourceFile :=
  files.mapIdx fun place f => { f with sourceId := some (f.sourceId.getD place) }

theorem number_append (files : List SourceFile) (f : SourceFile) :
    number (files ++ [f]) =
      number files ++ [{ f with sourceId := some (f.sourceId.getD files.length) }] := by
  unfold number
  rw [List.mapIdx_append, List.mapIdx_singleton, Nat.zero_add]

theorem map_path_number (files : List SourceFile) :
    (number files).map (·.path) = files.map (·.path) := by
  apply List.ext_getElem
  · simp [number]
  · simp [number]

/-! ## One request -/

/-- A file with a new path is taken in under its number, and nothing else changes. -/
theorem offer_new {b : Batch} {f : SourceFile} (hnew : f.path ∉ b.files.map (·.path)) :
    ∃ b', b.offer f = (b', .ok ()) ∧ b'.files = b.files ++ [b.numbered f] ∧
      b'.rejected = b.rejected := by
  unfold offer
  rw [dif_neg fun htaken => hnew (hasPath_iff.1 htaken)]
  exact ⟨_, rfl, rfl, rfl⟩

/-- A file with a path that is taken is refused, and the batch stays as it is. -/
theorem offer_taken {b : Batch} {f : SourceFile} (htaken : f.path ∈ b.files.map (·.path)) :
    b.offer f = (b, .error (.input f.path .duplicatePath)) := by
  unfold offer
  rw [dif_pos (hasPath_iff.2 htaken)]

/-- The files after a file was offered. -/
theorem files_offer (b : Batch) (f : SourceFile) :
    (b.offer f).1.files =
      if f.path ∈ b.files.map (·.path) then b.files else b.files ++ [b.numbered f] := by
  split_ifs with htaken
  · rw [offer_taken htaken]
  · obtain ⟨b', hoffer, hfiles, -⟩ := offer_new htaken
    rw [hoffer, hfiles]

/-- Bytes are taken in as the file of their text, unless they have none or its path is taken. -/
theorem addBytes_eq (b : Batch) (path : String) (content : List UInt8) (tree : Option String) :
    b.addBytes path content tree =
      match Utf8.decode content with
      | .error e => (b.reject path (.input path (.notUtf8 e)) ⟨_, rfl⟩, false)
      | .ok text =>
        match b.offer (.offered path text tree) with
        | (b', .ok ()) => (b', true)
        | (b', .error _) => (b'.reject path (.input path .duplicatePath) ⟨_, rfl⟩, false) := by
  unfold addBytes
  cases hdecode : Utf8.decode content with
  | error e =>
    have hread : SourceFile.ofBytes path content = .error (.input path (.notUtf8 e)) := by
      rw [SourceFile.ofBytes, hdecode]
    split
    · next hread' =>
      cases hread.symm.trans hread'
      rfl
    · next hread' => cases hread.symm.trans hread'
  | ok text =>
    have hread : SourceFile.ofBytes path content = .ok { path, text } := by
      rw [SourceFile.ofBytes, hdecode]
    split
    · next hread' => cases hread.symm.trans hread'
    · next hread' =>
      cases hread.symm.trans hread'
      split
      · next b' hoffer =>
        have hoffer : b.offer (.offered path text tree) = (b', .ok ()) := hoffer
        simp only [hoffer]
      · next b' e hoffer =>
        have hoffer : b.offer (.offered path text tree) = (b', .error e) := hoffer
        have he := offer_error hoffer
        rw [(SourceFile.offered_spec path text tree).1] at he
        subst he
        simp only [hoffer]

/-- One request adds the file that it brings, under its number, or leaves the files alone. -/
theorem files_serve_eq (b : Batch) (r : Request) :
    (b.serve r).1.files =
      match r.offer? with
      | some f =>
        if f.path ∈ b.files.map (·.path) then b.files else b.files ++ [b.numbered f]
      | none => b.files := by
  cases r with
  | file f => exact b.files_offer f
  | bytes path content tree =>
    rw [serve, addBytes_eq, Request.offer?]
    cases Utf8.decode content with
    | error e => rfl
    | ok text =>
      dsimp only
      rw [← files_offer]
      split
      · next heq => rw [heq]
      · next heq => rw [heq, reject]

/-- The files stay those accepted, under their numbers. -/
theorem files_serve {b : Batch} {files : List SourceFile} (h : b.files = number files)
    (r : Request) : (b.serve r).1.files = number (accept files r) := by
  have hlength : b.files.length = files.length := by
    rw [h]
    exact List.length_mapIdx
  rw [files_serve_eq, accept]
  cases r.offer? with
  | none => exact h
  | some f =>
    have hpaths : b.files.map (·.path) = files.map (·.path) := by
      rw [h, map_path_number]
    simp only [hpaths]
    split_ifs
    · exact h
    · rw [number_append, ← hlength, ← h]
      rfl

/-! ## All requests -/

/-- The files after any number of requests are those accepted, under their numbers. -/
theorem files_after (requests : List Request) :
    (after requests).files = number (accepted requests) := by
  suffices h : ∀ (b : Batch) (files : List SourceFile), b.files = number files →
      (requests.foldl (fun b r => (b.serve r).1) b).files =
        number (requests.foldl accept files) from h {} [] rfl
  induction requests with
  | nil => exact fun _ _ h => h
  | cons r requests ih => exact fun b files h => ih _ _ (files_serve h r)

/-- No file is accepted under a path that is taken. -/
theorem nodup_accept {files : List SourceFile} (h : (files.map (·.path)).Nodup) (r : Request) :
    ((accept files r).map (·.path)).Nodup := by
  unfold accept
  split
  · next f _ =>
    split_ifs with htaken
    · exact h
    · rw [List.map_append, List.map_singleton, ← List.concat_eq_append]
      exact h.concat htaken
  · exact h

theorem nodup_accepted (requests : List Request) : ((accepted requests).map (·.path)).Nodup := by
  refine List.foldlRecOn (motive := fun files => (List.map SourceFile.path files).Nodup)
    requests accept List.nodup_nil ?_
  intro files h r _
  exact nodup_accept h r

/-- What is promised of a batch that has accepted the given files, and of its next answer. -/
structure Sound (b : Batch) (files : List SourceFile) : Prop where
  paths_nodup : (b.files.map (·.path)).Nodup
  files_eq : b.files = number files
  /-- A file with a new path is added at the end. -/
  file_new : ∀ f, f.path ∉ b.files.map (·.path) →
    ∃ b', b.offer f = (b', .ok ()) ∧ b.add f = .ok b' ∧ b.serve (.file f) = (b', true) ∧
      b'.files = b.files ++ [b.numbered f] ∧ b'.rejected = b.rejected
  /-- A file that fails to be added leaves the whole batch as it is. -/
  file_taken : ∀ f, f.path ∈ b.files.map (·.path) →
    b.offer f = (b, .error (.input f.path .duplicatePath)) ∧
      b.add f = .error (.input f.path .duplicatePath) ∧ b.serve (.file f) = (b, false)
  /-- The bytes of a text under a new path are taken in, whatever the text of the tree is. -/
  bytes_new : ∀ path (text : String) tree, path ∉ b.files.map (·.path) →
    ∃ (f : SourceFile) (b' : Batch),
      f.path = path ∧ f.text = text ∧ f.sourceId = some b.files.length ∧
      b.serve (.bytes path text.toUTF8.data.toList tree) = (b', true) ∧
      b'.files = b.files ++ [f] ∧ b'.rejected = b.rejected
  /-- All other bytes are left out, with one input error for their path. -/
  bytes_left_out : ∀ path content tree,
    (path ∈ b.files.map (·.path) ∨ ∀ text : String, text.toUTF8.data.toList ≠ content) →
      ∃ fault b', b.serve (.bytes path content tree) = (b', false) ∧ b'.files = b.files ∧
        b'.rejected = b.rejected ++ [{ path, error := .input path fault, isInput := ⟨fault, rfl⟩ }]

/-- **Every history of requests leaves a sound batch**: whatever was asked for before and in which
order, its files are those that it accepted, and the next request is answered as promised. -/
theorem after_sound (requests : List Request) : (after requests).Sound (accepted requests) where
  paths_nodup := by
    rw [files_after, map_path_number]
    exact nodup_accepted requests
  files_eq := files_after requests
  file_new f hnew := by
    obtain ⟨b', hoffer, hfiles, hrejected⟩ := offer_new hnew
    refine ⟨b', hoffer, ?_, ?_, hfiles, hrejected⟩
    · rw [add, hoffer]
    · rw [serve, hoffer]
      rfl
  file_taken f htaken := by
    have hoffer := offer_taken htaken
    refine ⟨hoffer, ?_, ?_⟩
    · rw [add, hoffer]
    · rw [serve, hoffer]
      rfl
  bytes_new path text tree hnew := by
    obtain ⟨hpath, htext, hid⟩ := SourceFile.offered_spec path text tree
    have hdecode := Utf8.decode_eq_ok_iff.2 (rfl : text.toUTF8.data.toList = _)
    obtain ⟨b', hoffer, hfiles, hrejected⟩ := offer_new (hpath.symm ▸ hnew)
    refine ⟨(after requests).numbered (.offered path text tree), b', hpath, htext, ?_, ?_, hfiles,
      hrejected⟩
    · simp only [numbered, hid, Option.getD_none]
    · rw [serve, addBytes_eq, hdecode]
      dsimp only
      rw [hoffer]
  bytes_left_out path content tree hbad := by
    rw [serve, addBytes_eq]
    cases hdecode : Utf8.decode content with
    | error e => exact ⟨_, _, rfl, rfl, rfl⟩
    | ok text =>
      have hpath := (SourceFile.offered_spec path text tree).1
      have htaken := hbad.resolve_right fun hno => hno text (Utf8.decode_eq_ok_iff.1 hdecode)
      dsimp only
      rw [offer_taken (hpath.symm ▸ htaken)]
      exact ⟨_, _, rfl, rfl, rfl⟩

end Batch

end SolidityScan
