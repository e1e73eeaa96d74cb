/-
# The places of matches

A pattern is tried at the places between the characters of a text, from left to right.  The matches
that a scan reports start at such places, each after the one before, so their starts are strictly
increasing and none lies past the end of the text.

* `Regex.map_offset_cells` : a pattern is tried once at every place of a text;
* `Pattern.starts_sublist` : matches start at places of the text, in the order of these;
* `Pattern.starts_pairwise_lt`, `Pattern.start_le_size` : what follows for their offsets.
-/
import Mathlib.Data.List.Basic
import SolidityScan.Pattern
import SolidityScan.Text.Slice

namespace SolidityScan

/-! ## Places -/

namespace Site

/-- The places in a text lie between its ends. -/
theorem ofChars_offset_le {offset : Nat} {before : Option Char} {cs : List Char} {s : Site}
    (hs : s ∈ ofChars offset before cs) :
    offset ≤ s.offset ∧ s.offset ≤ offset + Text.byteSize cs := by
  induction cs generalizing offset before with
  | nil =>
    rw [ofChars, List.mem_singleton] at hs
    subst hs
    simp
  | cons c cs ih =>
    rw [ofChars, List.mem_cons] at hs
    rcases hs with rfl | hs
    · simp
    · have h := ih hs
      rw [Text.byteSize_cons]
      omega

/-- The places of a text have different offsets and come in their order. -/
theorem ofChars_pairwise_lt (offset : Nat) (before : Option Char) (cs : List Char) :
    (ofChars offset before cs).Pairwise fun s t => s.offset < t.offset := by
  induction cs generalizing offset before with
  | nil => exact List.pairwise_singleton _ _
  | cons c cs ih =>
    rw [ofChars, List.pairwise_cons]
    refine ⟨?_, ih _ _⟩
    intro t ht
    have hle := (ofChars_offset_le ht).1
    have hpos := c.utf8Size_pos
    show offset < t.offset
    omega

end Site

/-! ## Trying a pattern everywhere -/

/-- A machine makes one attempt at each place. -/
theorem Machine.map_offset_run (toll : Nat) (done : Site → Trial) (m : Machine)
    (sites : List Site) : (m.run toll done sites).map (·.offset) = sites.map (·.offset) := by
  unfold run
  induction sites with
  | nil => rfl
  | cons s rest ih =>
    rw [List.foldr_cons, List.map_cons, List.map_cons, ih]

/-- So does an automaton. -/
theorem Automaton.map_offset_cells (a : Automaton) (sites : List Site) :
    (a.cells sites).map (·.offset) = sites.map (·.offset) := by
  unfold cells
  induction sites with
  | nil => rfl
  | cons s rest ih =>
    rw [List.foldr_cons, List.map_cons, List.map_cons, ih]

namespace Regex

theorem map_offset_plainCells (e : Regex) (sites : List Site) :
    (e.plainCells sites).map (·.offset) = sites.map (·.offset) := by
  unfold plainCells
  by_cases h : e.factored.hasIdleLoop = true
  · rw [if_pos h]
    exact Automaton.map_offset_cells _ _
  · rw [if_neg h]
    exact Machine.map_offset_run _ _ _ _

/-- A pattern is tried once at every place of a text, whichever way it is run. -/
theorem map_offset_cells (e : Regex) (text : List Char) :
    (e.cells text).map (·.offset) = (Site.all text).map (·.offset) := by
  unfold cells
  by_cases h : e.backtracks = true
  · rw [if_pos h]
    exact Machine.map_offset_run _ _ _ _
  · rw [if_neg h]
    exact map_offset_plainCells _ _

end Regex

/-! ## Matches -/

/-- A search stops at the first place that has a match, and leaves the places after it. -/
theorem Cell.find_eq_some {budget spent : Nat} {cells rest : List Cell} {m : Match}
    (h : find budget spent cells = .ok (some (m, rest))) :
    ∃ skipped c, cells = skipped ++ c :: rest ∧ (∀ d ∈ skipped, d.trial.stop = none) ∧
      m.start = c.offset ∧ c.trial.stop = some m.stop := by
  induction cells generalizing spent with
  | nil =>
    rw [find] at h
    split at h <;> cases h
  | cons c cs ih =>
    rw [find] at h
    cases hstop : c.trial.stop with
    | none =>
      rw [hstop] at h
      obtain ⟨skipped, c', rfl, hskipped, hstart, htrial⟩ := ih h
      exact ⟨c :: skipped, c', rfl, List.forall_mem_cons.2 ⟨hstop, hskipped⟩, hstart, htrial⟩
    | some stop =>
      rw [hstop] at h
      dsimp only at h
      split at h
      · cases h
      · cases h
        refine ⟨[], c, rfl, ?_, rfl, hstop⟩
        intro d hd
        cases hd

/-- A search that finds nothing has passed places without a match only. -/
theorem Cell.find_eq_none {budget spent : Nat} {cells : List Cell}
    (h : find budget spent cells = .ok none) : ∀ c ∈ cells, c.trial.stop = none := by
  induction cells generalizing spent with
  | nil =>
    intro c hc
    cases hc
  | cons c cs ih =>
    rw [find] at h
    cases hstop : c.trial.stop with
    | none =>
      rw [hstop] at h
      exact List.forall_mem_cons.2 ⟨hstop, ih h⟩
    | some stop =>
      rw [hstop] at h
      dsimp only at h
      split at h <;> cases h

/-- What is found is the result of an attempt. -/
theorem Cell.exists_mem_of_find {budget spent : Nat} {cells rest : List Cell} {m : Match}
    (h : find budget spent cells = .ok (some (m, rest))) :
    ∃ c ∈ cells, m.start = c.offset ∧ c.trial.stop = some m.stop := by
  obtain ⟨skipped, c, rfl, -, hstart, hstop⟩ := find_eq_some h
  exact ⟨c, List.mem_append_right _ List.mem_cons_self, hstart, hstop⟩

/-- The attempts that are left after a match are the last ones. -/
theorem Cell.suffix_of_find {budget spent : Nat} {cells rest : List Cell} {m : Match}
    (h : find budget spent cells = .ok (some (m, rest))) : rest <:+ cells := by
  obtain ⟨skipped, c, rfl, -⟩ := find_eq_some h
  exact (List.suffix_cons c rest).trans (List.suffix_append _ _)

/-- A match starts before all that is left to try. -/
theorem Cell.starts_sublist_of_find {budget spent : Nat} {cells rest : List Cell} {m : Match}
    (h : find budget spent cells = .ok (some (m, rest))) :
    (m.start :: rest.map (·.offset)).Sublist (cells.map (·.offset)) := by
  obtain ⟨skipped, c, rfl, -, hstart, -⟩ := find_eq_some h
  rw [List.map_append, List.map_cons, hstart]
  exact List.sublist_append_right _ _

theorem Match.next_suffix (m : Match) (rest : List Cell) : m.next rest <:+ rest := by
  unfold Match.next
  split
  · exact List.suffix_refl _
  · exact List.dropWhile_suffix _

theorem Match.next_sublist (m : Match) (rest : List Cell) : (m.next rest).Sublist rest :=
  (m.next_suffix rest).sublist

namespace Pattern

/-- The first search of a plain scan decides how it goes on. -/
theorem scanPlain_cases {budget : Nat} {last : Option Nat} {cells : List Cell} {ms : List Match}
    (h : scanPlain budget last cells = .ok ms) :
    Cell.find budget 0 cells = .ok none ∧ ms = [] ∨
      ∃ m rest more, Cell.find budget 0 cells = .ok (some (m, rest)) ∧
        scanPlain budget (some m.stop) (m.next rest) = .ok more ∧
        ms = if m.start = m.stop ∧ last = some m.stop then more else m :: more := by
  rw [scanPlain] at h
  split at h
  · cases h
  · next hfind =>
    cases h
    exact Or.inl ⟨hfind, rfl⟩
  · next m rest hfind =>
    cases hmore : scanPlain budget (some m.stop) (m.next rest) with
    | error e =>
      rw [hmore] at h
      cases h
    | ok more =>
      rw [hmore] at h
      exact Or.inr ⟨m, rest, more, hfind, hmore, (Except.ok.inj h).symm⟩

/-- The first search of a scan with a guard, and what the guard says of its match, decide how it
goes on. -/
theorem scanGuarded_cases {budget : Nat} {holds : Nat → Except SearchError Bool}
    {cells : List Cell} {ms : List Match} (h : scanGuarded budget holds cells = .ok ms) :
    Cell.find budget 0 cells = .ok none ∧ ms = [] ∨
      ∃ m rest, Cell.find budget 0 cells = .ok (some (m, rest)) ∧
        (holds m.start = .ok true ∧ scanGuarded budget holds rest = .ok ms ∨
          holds m.start = .ok false ∧
            ∃ more, scanGuarded budget holds (m.next rest) = .ok more ∧ ms = m :: more) := by
  rw [scanGuarded] at h
  split at h
  · cases h
  · next hfind =>
    cases h
    exact Or.inl ⟨hfind, rfl⟩
  · next m rest hfind =>
    refine Or.inr ⟨m, rest, hfind, ?_⟩
    cases hguard : holds m.start with
    | error e =>
      rw [hguard] at h
      cases h
    | ok guarded =>
      rw [hguard] at h
      cases guarded with
      | true => exact Or.inl ⟨rfl, h⟩
      | false =>
        refine Or.inr ⟨rfl, ?_⟩
        cases hmore : scanGuarded budget holds (m.next rest) with
        | error e =>
          simp only [hmore] at h
          cases h
        | ok more =>
          simp only [hmore] at h
          cases h
          exact ⟨more, rfl, rfl⟩

/-- Matches start at places of the text, each at one further on. -/
theorem scanPlain_starts_sublist {budget : Nat} {last : Option Nat} {cells : List Cell}
    {ms : List Match} (h : scanPlain budget last cells = .ok ms) :
    (ms.map (·.start)).Sublist (cells.map (·.offset)) := by
  induction hn : cells.length using Nat.strongRecOn generalizing last cells ms with
  | _ n ih =>
    rcases scanPlain_cases h with ⟨-, rfl⟩ | ⟨m, rest, more, hfind, hmore, rfl⟩
    · exact List.nil_sublist _
    · have hlt : (m.next rest).length < n := by
        have h₁ := Cell.length_lt_of_find hfind
        have h₂ := m.length_next_le rest
        omega
      -- what comes later starts after the match, and the match starts at a place
      have hrest : (more.map (·.start)).Sublist (rest.map (·.offset)) :=
        (ih _ hlt hmore rfl).trans ((m.next_sublist rest).map _)
      have hplace := Cell.starts_sublist_of_find hfind
      split_ifs
      · exact hrest.trans ((List.sublist_cons_self _ _).trans hplace)
      · exact (hrest.cons_cons m.start).trans hplace

theorem scanGuarded_starts_sublist {budget : Nat} {holds : Nat → Except SearchError Bool}
    {cells : List Cell} {ms : List Match} (h : scanGuarded budget holds cells = .ok ms) :
    (ms.map (·.start)).Sublist (cells.map (·.offset)) := by
  induction hn : cells.length using Nat.strongRecOn generalizing cells ms with
  | _ n ih =>
    rcases scanGuarded_cases h with ⟨-, rfl⟩ | ⟨m, rest, hfind, hmore⟩
    · exact List.nil_sublist _
    · have hplace := Cell.starts_sublist_of_find hfind
      have hrest := Cell.length_lt_of_find hfind
      rcases hmore with ⟨-, hmore⟩ | ⟨-, more, hmore, rfl⟩
      -- a match that the guard rules out is dropped, and the search goes on at the next place
      · have hlater := ih _ (by omega) hmore rfl
        exact hlater.trans ((List.sublist_cons_self _ _).trans hplace)
      · have hnext := m.length_next_le rest
        have hlater := (ih _ (by omega) hmore rfl).trans ((m.next_sublist rest).map _)
        exact (hlater.cons_cons m.start).trans hplace

/-- Matches start at places of the text, in the order of these. -/
theorem starts_sublist {p : Pattern} {text : String} {ms : List Match}
    (h : p.scan text = .ok ms) :
    (ms.map (·.start)).Sublist ((Site.all text.toList).map (·.offset)) := by
  rw [← p.regex.map_offset_cells]
  unfold scan at h
  cases hguard : p.guard with
  | none =>
    rw [hguard] at h
    exact scanPlain_starts_sublist h
  | some g =>
    rw [hguard] at h
    exact scanGuarded_starts_sublist h

/-- Matches come from left to right. -/
theorem starts_pairwise_lt {p : Pattern} {text : String} {ms : List Match}
    (h : p.scan text = .ok ms) : ms.Pairwise fun m n => m.start < n.start := by
  have hplaces : ((Site.all text.toList).map (·.offset)).Pairwise (· < ·) := by
    rw [List.pairwise_map]
    exact Site.ofChars_pairwise_lt _ _ _
  have hstarts := hplaces.sublist (starts_sublist h)
  rwa [List.pairwise_map] at hstarts

/-- No match starts past the end of the text. -/
theorem start_le_size {p : Pattern} {text : String} {ms : List Match} (h : p.scan text = .ok ms)
    {m : Match} (hm : m ∈ ms) : m.start ≤ Text.byteSize text.toList := by
  have hmem := (starts_sublist h).subset (List.mem_map_of_mem hm)
  obtain ⟨s, hs, hoffset⟩ := List.mem_map.1 hmem
  have hle := (Site.ofChars_offset_le hs).2
  have hstart : s.offset = m.start := hoffset
  omega

end Pattern

end SolidityScan
