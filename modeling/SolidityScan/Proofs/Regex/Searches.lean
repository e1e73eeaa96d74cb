/-
# Searches from an offset

A pattern matches at some of the offsets between characters, and where the match at an offset stops
does not depend on where a search for it began.  A search from an offset gives the first match at or
after it.

* `Regex.matchAt?` : where the match at an offset stops;
* `Regex.matchAt?_bounds` : a match starts and stops between characters, and not before its start;
* `Regex.first?` : the first match at or after an offset;
* `Pattern.search_eq_first?` : a search that gives a result gives this one.
-/
import Mathlib.Data.List.Nodup
import SolidityScan.Proofs.Except
import SolidityScan.Proofs.Lists
import SolidityScan.Proofs.Regex.Stops
import SolidityScan.Proofs.Text.Boundaries

namespace SolidityScan

/-! ## The match at an offset -/

theorem Site.map_offset_ofChars (offset : Nat) (before : Option Char) (cs : List Char) :
    (ofChars offset before cs).map (·.offset) = (Text.boundaries cs).map (offset + ·) := by
  induction cs generalizing offset before with
  | nil => rfl
  | cons c cs ih =>
    rw [ofChars, List.map_cons, ih, Text.boundaries_cons, List.map_cons, List.map_map]
    refine congrArg (offset :: ·) (List.map_congr_left ?_)
    intro q _
    exact Nat.add_assoc _ _ _

theorem Cell.head_le {c d : Cell} {rest : List Cell}
    (hsorted : (c :: rest).Pairwise (·.offset < ·.offset)) (hd : d ∈ c :: rest) :
    c.offset ≤ d.offset := by
  rcases List.mem_cons.1 hd with rfl | hd
  · exact Nat.le_refl _
  · exact Nat.le_of_lt ((List.pairwise_cons.1 hsorted).1 d hd)

/-- A match at one of the places stops at one of them, and not before its start. -/
theorem Cell.StopsAhead.bounds {cells : List Cell} (h : StopsAhead cells)
    (hsorted : cells.Pairwise (·.offset < ·.offset)) {c : Cell} (hc : c ∈ cells) {stop : Nat}
    (hstop : c.trial.stop = some stop) : stop ∈ cells.map (·.offset) ∧ c.offset ≤ stop := by
  induction cells with
  | nil => cases hc
  | cons d rest ih =>
    obtain ⟨hfirst, hrest⟩ := h
    rcases List.mem_cons.1 hc with rfl | hc
    · have hmem := hfirst stop hstop
      obtain ⟨d, hd, rfl⟩ := List.mem_map.1 hmem
      exact ⟨hmem, head_le hsorted hd⟩
    · obtain ⟨hmem, hle⟩ := ih hrest (List.pairwise_cons.1 hsorted).2 hc
      exact ⟨List.mem_cons_of_mem _ hmem, hle⟩

namespace Regex

variable {e : Regex} {text : List Char}

/-- A pattern is tried at every offset between characters. -/
theorem offsets_cells (e : Regex) (text : List Char) :
    (e.cells text).map (·.offset) = Text.boundaries text := by
  rw [map_offset_cells, Site.all, Site.map_offset_ofChars]
  simp only [Nat.zero_add, List.map_id']

theorem cells_ascending (e : Regex) (text : List Char) :
    (e.cells text).Pairwise (·.offset < ·.offset) := by
  rw [← List.pairwise_map, offsets_cells]
  exact Text.boundaries_ascending text

/-- Where the match that starts at an offset of the text stops, if there is one. -/
def matchAt? (e : Regex) (text : List Char) (offset : Nat) : Option Nat :=
  ((e.cells text).find? (·.offset == offset)).bind (·.trial.stop)

theorem matchAt?_of_mem {c : Cell} (hc : c ∈ e.cells text) :
    e.matchAt? text c.offset = c.trial.stop := by
  have hsome : ((e.cells text).find? (·.offset == c.offset)).isSome :=
    List.find?_isSome.2 ⟨c, hc, beq_self_eq_true _⟩
  obtain ⟨d, hd⟩ := Option.isSome_iff_exists.1 hsome
  have hoffset : d.offset = c.offset := by simpa using List.find?_some hd
  -- two places of a text have different offsets
  have hnodup : ((e.cells text).map (·.offset)).Nodup := by
    rw [offsets_cells]
    exact (Text.boundaries_ascending text).imp Nat.ne_of_lt
  have hdc : d = c := List.inj_on_of_nodup_map hnodup (List.mem_of_find?_eq_some hd) hc hoffset
  rw [matchAt?, hd, hdc, Option.bind_some]

theorem exists_cell_of_matchAt? {q stop : Nat} (h : e.matchAt? text q = some stop) :
    ∃ c ∈ e.cells text, c.offset = q ∧ c.trial.stop = some stop := by
  obtain ⟨c, hc, hstop⟩ := Option.bind_eq_some_iff.1 h
  refine ⟨c, List.mem_of_find?_eq_some hc, ?_, hstop⟩
  simpa using List.find?_some hc

/-- A match starts and stops between characters, and does not stop before its start. -/
theorem matchAt?_bounds {q stop : Nat} (h : e.matchAt? text q = some stop) :
    q ∈ Text.boundaries text ∧ stop ∈ Text.boundaries text ∧ q ≤ stop := by
  obtain ⟨c, hc, rfl, hstop⟩ := exists_cell_of_matchAt? h
  obtain ⟨hmem, hle⟩ := (stopsAhead_cells e text).bounds (cells_ascending e text) hc hstop
  rw [offsets_cells] at hmem
  refine ⟨?_, hmem, hle⟩
  rw [← offsets_cells e text]
  exact List.mem_map_of_mem hc

/-- The match at the least offset, from the given one on, at which the pattern matches. -/
def first? (e : Regex) (text : List Char) (offset : Nat) : Option Match :=
  (Text.boundaries text).findSome? fun q =>
    if q < offset then none else (e.matchAt? text q).map (Match.mk q)

end Regex

/-! ## Searching -/

namespace Cell

/-- A search gives the match at the first place that has one. -/
theorem find_eq_findSome? {budget spent : Nat} {cells : List Cell}
    {found : Option (Match × List Cell)} (h : find budget spent cells = .ok found) :
    found.map Prod.fst = cells.findSome? fun c => c.trial.stop.map (Match.mk c.offset) := by
  cases found with
  | none =>
    refine (List.findSome?_eq_none_iff.2 ?_).symm
    intro c hc
    rw [find_eq_none h c hc, Option.map_none]
  | some found =>
    obtain ⟨m, rest⟩ := found
    obtain ⟨skipped, c, rfl, hskipped, hstart, hstop⟩ := find_eq_some h
    have hnone : (skipped.findSome? fun c => c.trial.stop.map (Match.mk c.offset)) = none := by
      refine List.findSome?_eq_none_iff.2 ?_
      intro d hd
      rw [hskipped d hd, Option.map_none]
    rw [List.findSome?_append, hnone, Option.none_or, List.findSome?_cons, hstop, Option.map_some,
      Option.map_some, ← hstart]

theorem le_offset_of_mem_dropBefore {offset : Nat} {cells : List Cell}
    (hsorted : cells.Pairwise (·.offset < ·.offset)) {c : Cell}
    (hc : c ∈ dropBefore offset cells) : offset ≤ c.offset := by
  unfold dropBefore at hc
  induction cells with
  | nil => cases hc
  | cons d rest ih =>
    by_cases hlt : d.offset < offset
    · rw [List.dropWhile_cons_of_pos (by simpa using hlt)] at hc
      exact ih (List.pairwise_cons.1 hsorted).2 hc
    · rw [List.dropWhile_cons_of_neg (by simpa using hlt)] at hc
      have hle := head_le hsorted hc
      omega

/-- No place from the offset on is dropped. -/
theorem findSome?_dropBefore {α : Type} (f : Cell → Option α) (offset : Nat) {cells : List Cell}
    (hsorted : cells.Pairwise (·.offset < ·.offset)) :
    (dropBefore offset cells).findSome? f =
      cells.findSome? fun c => if c.offset < offset then none else f c := by
  unfold dropBefore
  induction cells with
  | nil => rfl
  | cons c rest ih =>
    by_cases hlt : c.offset < offset
    · rw [List.dropWhile_cons_of_pos (by simpa using hlt), ih (List.pairwise_cons.1 hsorted).2,
        List.findSome?_cons, if_pos hlt]
    · rw [List.dropWhile_cons_of_neg (by simpa using hlt)]
      refine Lists.findSome?_congr ?_
      intro d hd
      have hle := head_le hsorted hd
      rw [if_neg (by omega)]

end Cell

namespace Pattern

/-- The first match from an offset on. -/
def search (p : Pattern) (text : List Char) (offset : Nat) : Except SearchError (Option Match) := do
  let found ← Cell.find p.budget 0 (Cell.dropBefore offset (p.regex.cells text))
  return found.map Prod.fst

/-- **A search gives the match at the least offset, from where it begins, that has one.** -/
theorem search_eq_first? {p : Pattern} {text : List Char} {offset : Nat} {found : Option Match}
    (h : p.search text offset = .ok found) : found = p.regex.first? text offset := by
  obtain ⟨found, hfind, hmap⟩ := bind_eq_ok.1 h
  cases hmap
  rw [Cell.find_eq_findSome? hfind, Cell.findSome?_dropBefore _ _ (p.regex.cells_ascending text),
    Regex.first?, ← p.regex.offsets_cells, List.findSome?_map]
  refine Lists.findSome?_congr ?_
  intro c hc
  rw [Function.comp_apply, Regex.matchAt?_of_mem hc]

/-- A search from the first of the remaining places is one that starts at an offset. -/
theorem succeeds_find_of_suffix {p : Pattern} {text : List Char}
    (h : ∀ q ∈ Text.boundaries text, Succeeds (p.search text q)) {cells : List Cell}
    (hcells : cells <:+ p.regex.cells text) : Succeeds (Cell.find p.budget 0 cells) := by
  cases cells with
  | nil => exact ⟨none, rfl⟩
  | cons c rest =>
    obtain ⟨passed, hpassed⟩ := hcells
    have hsorted := p.regex.cells_ascending text
    rw [← hpassed, List.pairwise_append] at hsorted
    have hdrop : Cell.dropBefore c.offset (p.regex.cells text) = c :: rest := by
      unfold Cell.dropBefore
      rw [← hpassed, List.dropWhile_append_of_pos, List.dropWhile_cons_of_neg (by simp)]
      intro d hd
      simpa using hsorted.2.2 d hd c List.mem_cons_self
    have hmem : c.offset ∈ Text.boundaries text := by
      rw [← p.regex.offsets_cells, ← hpassed]
      exact List.mem_map_of_mem (List.mem_append_right _ List.mem_cons_self)
    obtain ⟨found, hfound, -⟩ := succeeds_bind_iff.1 (h _ hmem)
    rw [hdrop] at hfound
    exact ⟨found, hfound⟩

end Pattern

end SolidityScan
