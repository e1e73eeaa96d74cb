/-
# Scans for matches that are not empty

A scan without a guard takes the first match, and goes on with the first one that does not start
before the end of the one taken.  If no match is empty, this is all that it does: of the matches at
all offsets of the text, those are left out that start inside the match taken before them.

* `Regex.allMatches` : the matches at all offsets of a text;
* `Pattern.disjoint` : the choice among matches from left to right;
* `Pattern.eq_disjoint_of_scan` : a scan that gives a result gives this choice;
* `Pattern.succeeds_scan_of_le` : a scan whose budget covers the whole text gives a result.
-/
import Mathlib.Algebra.Order.BigOperators.Group.List
import Mathlib.Algebra.Order.Ring.Nat
import Mathlib.Data.List.TakeWhile
import SolidityScan.Proofs.Regex.Searches

namespace SolidityScan

/-! ## All matches -/

/-- The match at a place, if there is one. -/
def Cell.match? (c : Cell) : Option Match :=
  c.trial.stop.map (Match.mk c.offset)

theorem Cell.match?_eq_some_iff {c : Cell} {m : Match} :
    c.match? = some m ↔ c.offset = m.start ∧ c.trial.stop = some m.stop := by
  rw [match?, Option.map_eq_some_iff]
  constructor
  · rintro ⟨stop, hstop, rfl⟩
    exact ⟨rfl, hstop⟩
  · rintro ⟨hstart, hstop⟩
    exact ⟨m.stop, hstop, by rw [hstart]⟩

namespace Regex

/-- The matches at all offsets of the text, from left to right. -/
def allMatches (e : Regex) (text : List Char) : List Match :=
  (e.cells text).filterMap Cell.match?

theorem mem_allMatches_iff {e : Regex} {text : List Char} {m : Match} :
    m ∈ e.allMatches text ↔ e.matchAt? text m.start = some m.stop := by
  rw [allMatches, List.mem_filterMap]
  simp only [Cell.match?_eq_some_iff]
  constructor
  · rintro ⟨c, hc, hstart, hstop⟩
    rw [← hstart, matchAt?_of_mem hc, hstop]
  · intro h
    exact exists_cell_of_matchAt? h

theorem allMatches_ascending (e : Regex) (text : List Char) :
    (e.allMatches text).Pairwise (·.start < ·.start) := by
  refine (cells_ascending e text).filterMap Cell.match? ?_
  intro c d hlt m hm n hn
  rw [← (Cell.match?_eq_some_iff.1 hm).1, ← (Cell.match?_eq_some_iff.1 hn).1]
  exact hlt

end Regex

/-! ## Choosing from left to right -/

namespace Pattern

/-- The matches taken from left to right, without those that start before the cursor, which is at
the end of the last one taken. -/
def disjoint : Nat → List Match → List Match
  | _, [] => []
  | cursor, m :: later =>
    if m.start < cursor then disjoint cursor later else m :: disjoint m.stop later

theorem disjoint_skip {cursor : Nat} {skipped : List Match} (h : ∀ m ∈ skipped, m.start < cursor)
    (later : List Match) : disjoint cursor (skipped ++ later) = disjoint cursor later := by
  induction skipped with
  | nil => rfl
  | cons m skipped ih =>
    obtain ⟨hm, hskipped⟩ := List.forall_mem_cons.1 h
    rw [List.cons_append, disjoint, if_pos hm, ih hskipped]

/-- After a match is taken, nothing is taken at the places that the scan leaves out. -/
theorem disjoint_dropBefore (cursor : Nat) (cells : List Cell) :
    disjoint cursor (cells.filterMap Cell.match?) =
      disjoint cursor ((Cell.dropBefore cursor cells).filterMap Cell.match?) := by
  have hsplit := List.takeWhile_append_dropWhile
    (p := fun c : Cell => c.offset < cursor) (l := cells)
  conv_lhs => rw [← hsplit, List.filterMap_append]
  refine disjoint_skip ?_ _
  intro m hm
  obtain ⟨c, hc, hmatch⟩ := List.mem_filterMap.1 hm
  rw [← (Cell.match?_eq_some_iff.1 hmatch).1]
  simpa using List.mem_takeWhile_imp hc

/-- **A scan takes from left to right the matches that do not start inside the one before**, if no
match is empty. -/
theorem eq_disjoint_of_scanPlain {budget cursor : Nat} {last : Option Nat} {cells : List Cell}
    {ms : List Match} (hfull : ∀ c ∈ cells, c.trial.stop ≠ some c.offset)
    (hcursor : ∀ c ∈ cells, cursor ≤ c.offset)
    (hsorted : cells.Pairwise (·.offset < ·.offset))
    (h : scanPlain budget last cells = .ok ms) :
    ms = disjoint cursor (cells.filterMap Cell.match?) := by
  induction hn : cells.length using Nat.strongRecOn generalizing cells ms cursor last with
  | _ n ih =>
    rcases scanPlain_cases h with ⟨hfind, rfl⟩ | ⟨m, rest, more, hfind, hmore, rfl⟩
    · have hnil : cells.filterMap Cell.match? = [] := by
        rw [List.filterMap_eq_nil_iff]
        intro c hc
        rw [Cell.match?, Cell.find_eq_none hfind c hc, Option.map_none]
      rw [hnil, disjoint]
    · have hlt := Cell.length_lt_of_find hfind
      have hnext := m.length_next_le rest
      have hsuffix := Cell.suffix_of_find hfind
      obtain ⟨skipped, c, rfl, hskipped, hstart, hstop⟩ := Cell.find_eq_some hfind
      have hc : c ∈ skipped ++ c :: rest := List.mem_append_right _ List.mem_cons_self
      have hnonempty : m.start ≠ m.stop := by
        intro heq
        refine hfull c hc ?_
        rw [hstop, ← heq, hstart]
      have hle : ¬ m.start < cursor := by
        have := hcursor c hc
        omega
      have hnone : skipped.filterMap Cell.match? = [] := by
        rw [List.filterMap_eq_nil_iff]
        intro d hd
        rw [Cell.match?, hskipped d hd, Option.map_none]
      have hmatch : c.match? = some m := Cell.match?_eq_some_iff.2 ⟨hstart.symm, hstop⟩
      have hdrop : m.next rest = Cell.dropBefore m.stop rest := by rw [Match.next, if_neg hnonempty]
      have hrest := hsorted.sublist hsuffix.sublist
      rw [if_neg (fun hempty => hnonempty hempty.1), List.filterMap_append, hnone, List.nil_append,
        List.filterMap_cons_some hmatch, disjoint, if_neg hle, disjoint_dropBefore, ← hdrop]
      have hlater : (m.next rest).Sublist (skipped ++ c :: rest) :=
        (m.next_sublist rest).trans hsuffix.sublist
      refine congrArg (m :: ·) (ih _ (by omega) (fun d hd => hfull d (hlater.subset hd)) ?_
        (hsorted.sublist hlater) hmore rfl)
      rw [hdrop]
      exact fun d hd => Cell.le_offset_of_mem_dropBefore hrest hd

/-- **The hits of a scan without a guard**, if no match of the text is empty. -/
theorem eq_disjoint_of_scan {p : Pattern} {text : String} {ms : List Match}
    (hguard : p.guard = none)
    (hfull : ∀ q, p.regex.matchAt? text.toList q ≠ some q) (h : p.scan text = .ok ms) :
    ms = disjoint 0 (p.regex.allMatches text.toList) := by
  rw [scan, hguard] at h
  refine eq_disjoint_of_scanPlain ?_ (fun _ _ => Nat.zero_le _) (p.regex.cells_ascending _) h
  intro c hc
  rw [← Regex.matchAt?_of_mem hc]
  exact hfull c.offset

end Pattern

/-! ## Budgets -/

/-- The branches that are given up at the places in all. -/
def Cell.spending (cells : List Cell) : Nat :=
  (cells.map (·.trial.abandoned)).sum

theorem Cell.spending_le_of_sublist {rest cells : List Cell} (h : rest.Sublist cells) :
    spending rest ≤ spending cells :=
  (h.map _).sum_le_sum fun _ _ => Nat.zero_le _

theorem Cell.succeeds_find {budget spent : Nat} {cells : List Cell}
    (h : spent + spending cells ≤ budget) : Succeeds (find budget spent cells) := by
  induction cells generalizing spent with
  | nil =>
    rw [find, if_neg (by omega)]
    exact succeeds_ok _
  | cons c rest ih =>
    have hcons : spending (c :: rest) = c.trial.abandoned + spending rest := List.sum_cons
    rw [find]
    split
    · exact ih (by omega)
    · rw [if_neg (by omega)]
      exact succeeds_ok _

namespace Pattern

theorem succeeds_scanPlain {budget : Nat} {cells : List Cell} (h : Cell.spending cells ≤ budget)
    (last : Option Nat) : Succeeds (scanPlain budget last cells) := by
  induction hn : cells.length using Nat.strongRecOn generalizing cells last with
  | _ n ih =>
    obtain ⟨found, hfound⟩ : Succeeds (Cell.find budget 0 cells) :=
      Cell.succeeds_find (by rwa [Nat.zero_add])
    rw [scanPlain]
    split
    · next e he => exact absurd ⟨found, hfound⟩ (he ▸ not_succeeds_error e)
    · exact succeeds_ok _
    · next m rest he =>
      have hlt := Cell.length_lt_of_find he
      have hnext := m.length_next_le rest
      have hlater := (m.next_sublist rest).trans (Cell.suffix_of_find he).sublist
      have hspending := Cell.spending_le_of_sublist hlater
      exact (ih _ (by omega) (by omega) (some m.stop) rfl).bind fun more => succeeds_ok _

/-- A scan without a guard gives a result if its budget allows for all branches of the whole
text. -/
theorem succeeds_scan_of_le {p : Pattern} {text : String} (hguard : p.guard = none)
    (h : Cell.spending (p.regex.cells text.toList) ≤ p.budget) : Succeeds (p.scan text) := by
  rw [scan, hguard]
  exact succeeds_scanPlain h none

end Pattern

end SolidityScan
