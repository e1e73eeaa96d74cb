/-
# Scans with and without a guard

A scan without a guard remembers where the last match stopped, and passes over an empty match right
there.  A scan with a guard remembers nothing and reports such matches too.  Where the guard rules
out nothing, this is the only difference.

* `Pattern.dropAbutting` : the matches without the empty ones at the end of the match before;
* `Pattern.scanPlain_of_scanGuarded` : the two scans over the same places, step by step.
-/
import SolidityScan.Proofs.Regex.Greedy

namespace SolidityScan.Pattern

/-- Leaves out each empty match that starts where the match before it stops; `last` is where the
match before the first one stops. -/
def dropAbutting : Option Nat → List Match → List Match
  | _, [] => []
  | last, m :: more =>
    if m.start = m.stop ∧ last = some m.start then dropAbutting (some m.stop) more
    else m :: dropAbutting (some m.stop) more

theorem dropAbutting_eq_self {ms : List Match} (h : ∀ m ∈ ms, m.start ≠ m.stop)
    (last : Option Nat) : dropAbutting last ms = ms := by
  induction ms generalizing last with
  | nil => rfl
  | cons m more ih =>
    obtain ⟨hm, hmore⟩ := List.forall_mem_cons.1 h
    rw [dropAbutting, if_neg (fun hempty => hm hempty.1), ih hmore]

/-! ## One step of a plain scan -/

theorem scanPlain_of_find_none {budget : Nat} {cells : List Cell}
    (h : Cell.find budget 0 cells = .ok none) (last : Option Nat) :
    scanPlain budget last cells = .ok [] := by
  rw [scanPlain]
  split
  · next he => cases h.symm.trans he
  · rfl
  · next he => cases h.symm.trans he

theorem scanPlain_of_find {budget : Nat} {cells rest : List Cell} {m : Match} {more : List Match}
    (h : Cell.find budget 0 cells = .ok (some (m, rest)))
    (hmore : scanPlain budget (some m.stop) (m.next rest) = .ok more) (last : Option Nat) :
    scanPlain budget last cells =
      .ok (if m.start = m.stop ∧ last = some m.stop then more else m :: more) := by
  rw [scanPlain]
  split
  · next he => cases h.symm.trans he
  · next he => cases h.symm.trans he
  · next he =>
    cases h.symm.trans he
    rw [hmore]
    rfl

/-! ## Both scans -/

/-- **Over the same places, a scan without a guard leaves out the abutting empty matches of one
whose guard rules out nothing.** -/
theorem scanPlain_of_scanGuarded {budget : Nat} {holds : Nat → Except SearchError Bool}
    {cells : List Cell} {ms : List Match}
    (hholds : ∀ c ∈ cells, c.trial.stop ≠ none → holds c.offset ≠ .ok true)
    (h : scanGuarded budget holds cells = .ok ms) (last : Option Nat) :
    scanPlain budget last cells = .ok (dropAbutting last ms) := by
  induction hn : cells.length using Nat.strongRecOn generalizing cells ms last with
  | _ n ih =>
    rcases scanGuarded_cases h with ⟨hfind, rfl⟩ | ⟨m, rest, hfind, hmore⟩
    · exact scanPlain_of_find_none hfind last
    · have hlt := Cell.length_lt_of_find hfind
      have hnext := m.length_next_le rest
      obtain ⟨c, hc, hstart, hstop⟩ := Cell.exists_mem_of_find hfind
      have hfree : holds m.start ≠ .ok true := by
        rw [hstart]
        exact hholds c hc (by rw [hstop]; exact Option.some_ne_none _)
      rcases hmore with ⟨hguard, -⟩ | ⟨-, more, hmore, rfl⟩
      · exact absurd hguard hfree
      -- both go on at the same places, and the end of this match is the only thing to remember
      · have hlater := (m.next_suffix rest).trans (Cell.suffix_of_find hfind)
        have hplain := ih _ (by omega) (fun d hd => hholds d (hlater.subset hd)) hmore
          (some m.stop) rfl
        rw [scanPlain_of_find hfind hplain, dropAbutting]
        refine congrArg Except.ok (if_congr (and_congr_right fun hempty => ?_) rfl rfl)
        rw [hempty]

/-- **The scans with and without a guard agree up to abutting empty matches**, for a guard that
holds at no match of the text.  They are equal if no match of the text is empty. -/
theorem plainScan_eq_dropAbutting {p : Pattern} {g : Guard} {text : String} {ms : List Match}
    (hguard : ∀ q stop, p.regex.matchAt? text.toList q = some stop →
      g.holds text.toList q ≠ .ok true)
    (h : ({ p with guard := some g } : Pattern).scan text = .ok ms) :
    ({ p with guard := none } : Pattern).scan text = .ok (dropAbutting none ms) ∧
      ((∀ q, p.regex.matchAt? text.toList q ≠ some q) →
        ({ p with guard := none } : Pattern).scan text = .ok ms) := by
  have hplain : ({ p with guard := none } : Pattern).scan text = .ok (dropAbutting none ms) := by
    refine scanPlain_of_scanGuarded ?_ h none
    intro c hc hstop
    obtain ⟨stop, hstop⟩ := Option.ne_none_iff_exists'.1 hstop
    exact hguard _ stop ((Regex.matchAt?_of_mem hc).trans hstop)
  refine ⟨hplain, ?_⟩
  intro hempty
  have hfull : ∀ m ∈ ms, m.start ≠ m.stop := by
    intro m hm heq
    rw [eq_chosen_of_scan h] at hm
    have hstop := stop_of_mem_greedy hm
    rw [← heq] at hstop
    exact hempty m.start hstop
  rw [hplain, dropAbutting_eq_self hfull]

/-- The empty match right after the `b` is left out, and the one past the next character is not. -/
theorem plainScan_eq_dropAbutting_run :
    ({ pairOrRun with guard := some afterX } : Pattern).scan "ébé" =
        .ok [⟨0, 0⟩, ⟨2, 3⟩, ⟨3, 3⟩, ⟨5, 5⟩] ∧
      ({ pairOrRun with guard := none } : Pattern).scan "ébé" = .ok [⟨0, 0⟩, ⟨2, 3⟩, ⟨5, 5⟩] := by
  have hguard : ∀ q ∈ Text.boundaries "ébé".toList, afterX.holds "ébé".toList q ≠ .ok true := by
    decide +kernel
  have hscan : ({ pairOrRun with guard := some afterX } : Pattern).scan "ébé" =
      .ok [⟨0, 0⟩, ⟨2, 3⟩, ⟨3, 3⟩, ⟨5, 5⟩] := by decide +kernel
  refine ⟨hscan, (plainScan_eq_dropAbutting ?_ hscan).1⟩
  intro q stop hstop
  exact hguard q (Regex.matchAt?_bounds hstop).1

end SolidityScan.Pattern
