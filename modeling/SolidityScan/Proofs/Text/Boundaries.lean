/-
# Places between characters

Offsets count bytes, and a text can only be cut between two characters.  The offsets where it can be
cut are the sizes of its beginnings.

* `Text.boundaries` : the offsets between characters, from the first to the last;
* `Text.mem_boundaries_iff` : a text can be cut at each of them;
* `Text.slice?_append` : what lies between two of them.
-/
import Mathlib.Data.List.Infix
import SolidityScan.Text.Slice

namespace SolidityScan.Text

theorem byteSize_reverse (cs : List Char) : byteSize cs.reverse = byteSize cs := by
  induction cs with
  | nil => rfl
  | cons c cs ih =>
    rw [List.reverse_cons, byteSize_append, ih, byteSize_cons, byteSize_cons, byteSize_nil]
    omega

/-! ## Offsets between characters -/

/-- The offsets between characters: the sizes of all beginnings of the text. -/
def boundaries (text : List Char) : List Nat :=
  text.inits.map byteSize

/-- After the first character, the text can be cut where its rest can. -/
theorem boundaries_cons (c : Char) (cs : List Char) :
    boundaries (c :: cs) = 0 :: (boundaries cs).map (c.utf8Size + ·) := by
  unfold boundaries
  rw [List.inits_cons, List.map_cons, List.map_map, List.map_map]
  rfl

/-- A text can be cut in two exactly at these offsets. -/
theorem mem_boundaries_iff {text : List Char} {p : Nat} :
    p ∈ boundaries text ↔ ∃ head tail, text = head ++ tail ∧ byteSize head = p := by
  unfold boundaries
  rw [List.mem_map]
  constructor
  · rintro ⟨head, hhead, hp⟩
    obtain ⟨tail, htail⟩ := (List.mem_inits _ _).1 hhead
    exact ⟨head, tail, htail.symm, hp⟩
  · rintro ⟨head, tail, rfl, hp⟩
    exact ⟨head, (List.mem_inits _ _).2 ⟨tail, rfl⟩, hp⟩

/-- No offset is listed twice, since every character takes up a byte. -/
theorem boundaries_ascending (text : List Char) : (boundaries text).Pairwise (· < ·) := by
  induction text with
  | nil => exact List.pairwise_singleton _ _
  | cons c cs ih =>
    rw [boundaries_cons, List.pairwise_cons, List.pairwise_map]
    refine ⟨?_, ih.imp fun hlt => Nat.add_lt_add_left hlt _⟩
    intro p hp
    obtain ⟨q, -, rfl⟩ := List.mem_map.1 hp
    have hpos := c.utf8Size_pos
    omega

/-! ## Cutting -/

/-- To drop the bytes of the first character is to drop the character. -/
theorem dropBytes?_cons (c : Char) (n : Nat) (cs : List Char) :
    dropBytes? (c.utf8Size + n) (c :: cs) = dropBytes? n cs := by
  have hpos := c.utf8Size_pos
  obtain ⟨m, hm⟩ : ∃ m, c.utf8Size + n = m + 1 := ⟨c.utf8Size + n - 1, by omega⟩
  rw [hm, dropBytes?, if_pos (by omega), ← hm, Nat.add_sub_cancel_left]

/-- To take the bytes of the first character is to take the character. -/
theorem takeBytes?_cons (c : Char) (n : Nat) (cs : List Char) :
    takeBytes? (c.utf8Size + n) (c :: cs) = (takeBytes? n cs).map (c :: ·) := by
  have hpos := c.utf8Size_pos
  obtain ⟨m, hm⟩ : ∃ m, c.utf8Size + n = m + 1 := ⟨c.utf8Size + n - 1, by omega⟩
  rw [hm, takeBytes?, if_pos (by omega), ← hm, Nat.add_sub_cancel_left]

/-- To drop as many bytes as the beginning has leaves the rest. -/
theorem dropBytes?_append (head tail : List Char) :
    dropBytes? (byteSize head) (head ++ tail) = some tail := by
  induction head with
  | nil => rw [byteSize_nil, List.nil_append, dropBytes?]
  | cons c cs ih => rw [byteSize_cons, List.cons_append, dropBytes?_cons, ih]

/-- To take as many bytes as the beginning has gives the beginning. -/
theorem takeBytes?_append (head tail : List Char) :
    takeBytes? (byteSize head) (head ++ tail) = some head := by
  induction head with
  | nil => rw [byteSize_nil, List.nil_append, takeBytes?]
  | cons c cs ih => rw [byteSize_cons, List.cons_append, takeBytes?_cons, ih, Option.map_some]

/-- A part of a text is what lies between the offsets of its ends. -/
theorem slice?_append (head part tail : List Char) :
    slice? (head ++ (part ++ tail)) (byteSize head) (byteSize head + byteSize part) =
      some part := by
  rw [slice?, dropBytes?_append, Option.bind_some, Nat.add_sub_cancel_left, takeBytes?_append]

end SolidityScan.Text
