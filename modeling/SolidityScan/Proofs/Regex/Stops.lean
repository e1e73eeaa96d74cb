/-
# Where matches stop

A match that starts at a place of a text stops at the same place or at one further right.  The
machine goes through the places from right to left and makes no outcome of its own: it starts with
the place where it stands, and otherwise passes on outcomes that it has kept from places to the
right.  So it is enough to see that all that it keeps stops at places it has passed.

* `Machine.StopsIn` : all outcomes that a machine keeps stop at certain offsets;
* `Machine.stopsIn_trial`, `Machine.stopsIn_shift` : a step gives and keeps no other outcomes;
* `Automaton.stop?_cases` : the same for automata;
* `Regex.stopsAhead_cells` : every match of a text stops at a place at or after its start.
-/
import SolidityScan.Proofs.Regex.Places

namespace SolidityScan

/-! ## Outcomes -/

/-- If the outcome is a match, it stops at an offset in the set. -/
def Trial.StopsIn (S : Nat → Prop) (t : Trial) : Prop :=
  ∀ stop, t.stop = some stop → S stop

namespace Trial

variable {S : Nat → Prop} {t u : Trial}

theorem stopsIn_deadEnd (toll : Nat) : (deadEnd toll).StopsIn S := by
  intro stop hstop
  cases hstop

theorem stopsIn_accept {s : Site} (h : S s.offset) : (accept s).StopsIn S := by
  intro stop hstop
  cases hstop
  exact h

theorem StopsIn.mono {S' : Nat → Prop} (h : t.StopsIn S) (hS : ∀ stop, S stop → S' stop) :
    t.StopsIn S' :=
  fun stop hstop => hS stop (h stop hstop)

theorem StopsIn.after (h : t.StopsIn S) (n : Nat) : (t.after n).StopsIn S :=
  h

/-- If two outcomes stop in the set, so does the choice between them. -/
theorem StopsIn.orElse (ht : t.StopsIn S) (hu : u.StopsIn S) : (t.orElse u).StopsIn S := by
  unfold Trial.orElse
  split
  · exact ht
  · exact hu.after _

theorem StopsIn.choose (ht : t.StopsIn S) (hu : u.StopsIn S) (greedy : Bool) :
    (choose greedy t u).StopsIn S := by
  unfold Trial.choose
  split
  · exact ht.orElse hu
  · exact hu.orElse ht

end Trial

/-! ## Machines -/

namespace Machine

/-- All outcomes that the machine keeps stop at offsets in the set. -/
def StopsIn (S : Nat → Prop) : Machine → Prop
  | char _ next => next.StopsIn S
  | seq a b => a.StopsIn S ∧ b.StopsIn S
  | alt a b => a.StopsIn S ∧ b.StopsIn S
  | star body _ => body.StopsIn S
  | plus body _ => body.StopsIn S
  | whole _ passed => ∀ c ∈ passed, c.trial.StopsIn S
  | empty | assert _ | look _ _ => True

variable {S : Nat → Prop}

theorem StopsIn.mono {S' : Nat → Prop} {m : Machine} (h : m.StopsIn S)
    (hS : ∀ stop, S stop → S' stop) : m.StopsIn S' := by
  induction m with
  | char _ next => exact Trial.StopsIn.mono h hS
  | seq a b iha ihb => exact ⟨iha h.1, ihb h.2⟩
  | alt a b iha ihb => exact ⟨iha h.1, ihb h.2⟩
  | star body _ ih => exact ih h
  | plus body _ ih => exact ih h
  | whole _ passed => exact fun c hc => (h c hc).mono hS
  | empty | assert _ | look _ _ => trivial

/-- What follows a part is tried here or at a place that was passed. -/
theorem stopsIn_follow {offset stop toll : Nat} {k : Trial} {passed : List Cell}
    (hk : k.StopsIn S) (hpassed : ∀ c ∈ passed, c.trial.StopsIn S) :
    (follow offset k passed stop toll).StopsIn S := by
  unfold follow
  split
  · exact hk
  · split
    · next c hc => exact hpassed c (List.mem_of_find?_eq_some hc)
    · exact Trial.stopsIn_deadEnd toll

/-- An inspection lets an attempt go on or ends it, and so adds no stop. -/
theorem stopsIn_inspect {negated : Bool} {i : Inspection} {toll : Nat} {k : Trial}
    (hk : k.StopsIn S) : (inspect negated i toll k).StopsIn S := by
  unfold inspect
  split
  · exact Trial.stopsIn_deadEnd _
  · exact hk.after _
  · exact Trial.stopsIn_deadEnd _
  · split
    · exact hk.after _
    · intro stop hstop
      cases hstop

/-- An outcome is one that follows the pattern, or one that was kept. -/
theorem stopsIn_trial {m : Machine} (hm : m.StopsIn S) (toll : Nat) (s : Site) {k : Trial}
    (hk : k.StopsIn S) : (m.trial toll s k).StopsIn S := by
  induction m generalizing k with
  | empty => exact hk
  | char set next =>
    rw [trial]
    split
    · exact hm
    · exact Trial.stopsIn_deadEnd toll
  | assert a =>
    rw [trial]
    split
    · exact hk
    · exact Trial.stopsIn_deadEnd toll
  | seq a b iha ihb => exact iha hm.1 (ihb hm.2 hk)
  | alt a b iha ihb => exact (iha hm.1 hk).orElse (ihb hm.2 hk)
  | star body greedy ih => exact (ih hm (Trial.stopsIn_deadEnd toll)).choose hk greedy
  | plus body greedy ih =>
    exact ih hm ((ih hm (Trial.stopsIn_deadEnd toll)).choose hk greedy)
  | whole answers passed =>
    rw [trial]
    split
    · exact (stopsIn_follow hk hm).after _
    · intro stop hstop
      cases hstop
    · exact Trial.stopsIn_deadEnd toll
  | look negated answers =>
    rw [trial]
    split
    · exact stopsIn_inspect hk
    · exact Trial.stopsIn_deadEnd toll

/-- What the machine keeps for the place to the left is what follows it here, or was kept before. -/
theorem stopsIn_shift {m : Machine} (hm : m.StopsIn S) (toll : Nat) (s : Site) {k : Trial}
    (hk : k.StopsIn S) : (m.shift toll s k).StopsIn S := by
  induction m generalizing k with
  | char set next => exact hk
  | seq a b iha ihb => exact ⟨iha hm.1 (stopsIn_trial hm.2 toll s hk), ihb hm.2 hk⟩
  | alt a b iha ihb => exact ⟨iha hm.1 hk, ihb hm.2 hk⟩
  | star body greedy ih =>
    have hround := stopsIn_trial (m := body) hm toll s (Trial.stopsIn_deadEnd toll)
    exact ih hm (hround.choose hk greedy)
  | plus body greedy ih =>
    have hround := stopsIn_trial (m := body) hm toll s (Trial.stopsIn_deadEnd toll)
    exact ih hm (hround.choose hk greedy)
  | whole answers passed => exact List.forall_mem_cons.2 ⟨hk, hm⟩
  | empty | assert _ | look _ _ => trivial

end Machine

/-! ## Runs -/

/-- Every match at one of the places stops there or at a place further right. -/
def Cell.StopsAhead : List Cell → Prop
  | [] => True
  | c :: rest => c.trial.StopsIn (· ∈ (c :: rest).map (·.offset)) ∧ StopsAhead rest

namespace Machine

/-- The machine after a run over the places, and the outcomes at them. -/
def runAll (toll : Nat) (done : Site → Trial) (m : Machine) (sites : List Site) :
    Machine × List Cell :=
  sites.foldr
    (fun s (m, cells) =>
      let (t, m) := m.step toll s (done s)
      (m, ⟨s.offset, t⟩ :: cells))
    (m, [])

/-- At each place the machine is run with what it has become behind that place. -/
theorem runAll_cons (toll : Nat) (done : Site → Trial) (m : Machine) (s : Site)
    (sites : List Site) :
    runAll toll done m (s :: sites) =
      ((runAll toll done m sites).1.shift toll s (done s),
        ⟨s.offset, (runAll toll done m sites).1.trial toll s (done s)⟩ ::
          (runAll toll done m sites).2) := by
  unfold runAll
  rw [List.foldr_cons]
  simp only [step_eq]

/-- **A run gives matches that stop at or after their start**, if the pattern keeps nothing at first
and a match is complete where its end is reached. -/
theorem stopsAhead_run {m : Machine} (hm : m.StopsIn fun _ => False) (toll : Nat)
    (sites : List Site) : Cell.StopsAhead (m.run toll .accept sites) := by
  -- the machine keeps only outcomes at places that it has passed
  have hall : (runAll toll .accept m sites).1.StopsIn (· ∈ sites.map (·.offset)) ∧
      (runAll toll .accept m sites).2.map (·.offset) = sites.map (·.offset) ∧
      Cell.StopsAhead (runAll toll .accept m sites).2 := by
    induction sites with
    | nil => exact ⟨hm.mono fun _ h => h.elim, rfl, trivial⟩
    | cons s sites ih =>
      obtain ⟨hkept, hoffsets, hcells⟩ := ih
      have hmore : (runAll toll .accept m sites).1.StopsIn (· ∈ (s :: sites).map (·.offset)) :=
        hkept.mono fun stop hstop => List.mem_cons_of_mem _ hstop
      have hhere : (Trial.accept s).StopsIn (· ∈ (s :: sites).map (·.offset)) :=
        Trial.stopsIn_accept List.mem_cons_self
      rw [runAll_cons]
      refine ⟨stopsIn_shift hmore toll s hhere, ?_, ?_, hcells⟩
      · rw [List.map_cons, List.map_cons, hoffsets]
      · rw [List.map_cons, hoffsets]
        exact stopsIn_trial hmore toll s hhere
  exact hall.2.2

end Machine

/-! ## Automata -/

namespace Automaton

variable {a : Automaton} {s : Site} {later : Array (Option Nat)}

/-- A match found at a place stops there, or where one of the later places has it. -/
theorem explore_cases {fuel : Nat} {seen : Array Bool} {waiting : List Nat} {stop : Nat}
    (h : a.explore s later fuel seen waiting = some stop) :
    stop = s.offset ∨ ∃ q, later.getD q none = some stop := by
  induction fuel generalizing seen waiting with
  | zero => cases h
  | succ fuel ih =>
    cases waiting with
    | nil => cases h
    | cons q waiting =>
      rw [explore] at h
      split at h
      · exact ih h
      · dsimp only at h
        split at h
        · exact ih h
        · cases h
          exact Or.inl rfl
        · next set next _ =>
          split at h
          · next found hfound =>
            cases h
            split at hfound
            · exact Or.inr ⟨next, hfound⟩
            · cases hfound
          · exact ih h
        · exact ih h
        · exact ih h

/-- A state of the automaton stops here or where a state stops later. -/
theorem stop?_cases {q stop : Nat} (h : a.stop? s later q = some stop) :
    stop = s.offset ∨ ∃ q, later.getD q none = some stop :=
  explore_cases h

/-- The stops that are kept for the place to the left are stops of matches found here. -/
theorem stops_getD {q stop : Nat} (h : (a.stops s later).getD q none = some stop) :
    stop = s.offset ∨ ∃ q, later.getD q none = some stop := by
  have hall : ∀ q stop, (a.stops s later).getD q none = some stop →
      stop = s.offset ∨ ∃ q, later.getD q none = some stop := by
    unfold stops
    refine Array.foldl_induction
      (fun _ (found : Array (Option Nat)) => ∀ q stop, found.getD q none = some stop →
        stop = s.offset ∨ ∃ q, later.getD q none = some stop) ?_ ?_
    · intro q stop hstop
      simp [Array.getD] at hstop
    · intro i found hfound q stop hstop
      split at hstop
      · split at hstop
        · next set next _ _ =>
          by_cases hq : next = q ∧ q < found.size
          · obtain ⟨rfl, hlt⟩ := hq
            rw [Array.getD_eq_getD_getElem?, Array.getElem?_setIfInBounds_self_of_lt hlt] at hstop
            exact stop?_cases hstop
          · refine hfound q stop ?_
            rw [← hstop, Array.getD_eq_getD_getElem?, Array.getD_eq_getD_getElem?,
              Array.getElem?_setIfInBounds]
            split_ifs with hnext hlt
            · exact absurd ⟨hnext, hnext ▸ hlt⟩ hq
            · simp [← hnext, Nat.not_lt.1 hlt]
            · rfl
        · exact hfound q stop hstop
      · exact hfound q stop hstop
  exact hall q stop h

/-- The stops that are kept after a run over the places, and the outcomes at them. -/
def runAll (a : Automaton) (sites : List Site) : Array (Option Nat) × List Cell :=
  sites.foldr
    (fun s (later, cells) =>
      (a.stops s later, ⟨s.offset, ⟨a.stop? s later a.start, 0⟩⟩ :: cells))
    (Array.replicate a.nodes.size none, [])

theorem runAll_cons (a : Automaton) (s : Site) (sites : List Site) :
    a.runAll (s :: sites) =
      (a.stops s (a.runAll sites).1,
        ⟨s.offset, ⟨a.stop? s (a.runAll sites).1 a.start, 0⟩⟩ :: (a.runAll sites).2) :=
  rfl

/-- **An automaton gives matches that stop at or after their start.** -/
theorem stopsAhead_cells (a : Automaton) (sites : List Site) : Cell.StopsAhead (a.cells sites) := by
  -- as for a machine, only stops at places that were passed are kept
  have hall : (∀ q stop, (a.runAll sites).1.getD q none = some stop →
        stop ∈ sites.map (·.offset)) ∧
      (a.runAll sites).2.map (·.offset) = sites.map (·.offset) ∧
      Cell.StopsAhead (a.runAll sites).2 := by
    induction sites with
    | nil =>
      refine ⟨?_, rfl, trivial⟩
      intro q stop hstop
      simp [runAll, Array.getD] at hstop
    | cons s sites ih =>
      obtain ⟨hlater, hoffsets, hcells⟩ := ih
      have hknown : ∀ {stop : Nat},
          (stop = s.offset ∨ ∃ q, (a.runAll sites).1.getD q none = some stop) →
          stop ∈ (s :: sites).map (·.offset) := by
        rintro stop (rfl | ⟨q, hq⟩)
        · exact List.mem_cons_self
        · exact List.mem_cons_of_mem _ (hlater q stop hq)
      rw [runAll_cons]
      refine ⟨fun q stop hstop => hknown (stops_getD hstop), ?_, ?_, hcells⟩
      · rw [List.map_cons, List.map_cons, hoffsets]
      · rw [List.map_cons, hoffsets]
        exact fun stop hstop => hknown (stop?_cases hstop)
  exact hall.2.2

end Automaton

/-! ## Patterns -/

namespace Machine

variable {S : Nat → Prop}

/-- Repeating a body a fixed number of times adds no stop. -/
theorem stopsIn_times {body m : Machine} (hbody : body.StopsIn S) (hm : m.StopsIn S) (n : Nat) :
    (times body n m).StopsIn S := by
  induction n with
  | zero => exact hm
  | succ n ih => exact ⟨hbody, ih⟩

theorem stopsIn_upTo {body : Machine} (hbody : body.StopsIn S) (greedy : Bool) (n : Nat) :
    (upTo body greedy n).StopsIn S := by
  induction n with
  | zero => trivial
  | succ n ih =>
    rw [upTo]
    split
    · exact ⟨⟨hbody, ih⟩, trivial⟩
    · exact ⟨trivial, hbody, ih⟩

/-- Rounds of a body have the stops of the body. -/
theorem stopsIn_rounds {body : Machine} (hbody : body.StopsIn S) (least : Nat) (most : Option Nat)
    (greedy : Bool) : (rounds body least most greedy).StopsIn S := by
  unfold rounds
  split
  · exact stopsIn_times hbody (stopsIn_upTo hbody greedy _) _
  · exact hbody
  · exact stopsIn_times (m := plus body greedy) hbody hbody _

theorem stopsIn_boundedRounds {body : Machine} (hbody : body.StopsIn S) (places : Nat) (e : Regex)
    (least : Nat) (most : Option Nat) (greedy : Bool) :
    (boundedRounds places e body least most greedy).StopsIn S := by
  unfold boundedRounds
  split
  · exact stopsIn_rounds hbody _ _ _
  · exact stopsIn_rounds hbody _ _ _

end Machine

namespace Regex

variable {S : Nat → Prop}

/-- The machine of a pattern without lookaround keeps no outcome before it has run. -/
theorem stopsIn_plainMachine (places : Nat) (e : Regex) : (e.plainMachine places).StopsIn S := by
  induction e with
  | char s => exact Trial.stopsIn_deadEnd 0
  | seq a b iha ihb => exact ⟨iha, ihb⟩
  | alt a b iha ihb => exact ⟨iha, ihb⟩
  | rep e least most greedy ih => exact Machine.stopsIn_boundedRounds ih places e least most greedy
  | group captured e ih => exact ih
  | atomic e ih => exact ih
  | empty | assert _ | look _ _ _ => trivial

theorem stopsIn_wholeMachine (sites : List Site) (e : Regex) :
    (e.wholeMachine sites).StopsIn S := by
  unfold wholeMachine
  split
  · exact stopsIn_plainMachine _ e
  · intro c hc
    cases hc

/-- The machine of a pattern keeps no outcome before it has passed a place. -/
theorem stopsIn_machine (sites : List Site) (r : Role) (e : Regex) :
    (e.machine sites r).StopsIn S := by
  induction e generalizing r with
  | empty | assert _ =>
    rw [machine]
    split
    · exact stopsIn_wholeMachine sites _
    · trivial
  | char s =>
    rw [machine]
    split
    · exact stopsIn_wholeMachine sites _
    · exact Trial.stopsIn_deadEnd 0
  | seq a b iha ihb =>
    rw [machine]
    split
    · exact stopsIn_wholeMachine sites _
    · split
      · exact stopsIn_wholeMachine sites _
      · split
        · exact ⟨stopsIn_wholeMachine sites a, ihb _⟩
        · exact ⟨iha _, ihb _⟩
  | alt a b iha ihb =>
    rw [machine]
    split
    · exact stopsIn_wholeMachine sites _
    · exact ⟨iha _, ihb _⟩
  | rep e least most greedy ih =>
    rw [machine]
    split
    · exact stopsIn_wholeMachine sites _
    · exact Machine.stopsIn_boundedRounds (ih _) _ e least most greedy
  | group captured e ih =>
    rw [machine]
    split
    · exact stopsIn_wholeMachine sites _
    · exact ih _
  | atomic e ih =>
    rw [machine]
    split
    · exact stopsIn_wholeMachine sites _
    · intro c hc
      cases hc
  | look side negated e ih =>
    rw [machine]
    split
    · exact stopsIn_wholeMachine sites _
    · trivial

/-- Whichever way a pattern is tried, what it finds at a place does not end before that place. -/
theorem stopsAhead_plainCells (e : Regex) (sites : List Site) :
    Cell.StopsAhead (e.plainCells sites) := by
  unfold plainCells
  dsimp only
  split
  · exact Automaton.stopsAhead_cells _ sites
  · exact Machine.stopsAhead_run (stopsIn_plainMachine _ _) 0 sites

/-- **Every match of a text stops at a place at or after its start.** -/
theorem stopsAhead_cells (e : Regex) (text : List Char) : Cell.StopsAhead (e.cells text) := by
  unfold cells
  dsimp only
  split
  · exact Machine.stopsAhead_run (stopsIn_machine _ _ e) 1 _
  · exact stopsAhead_plainCells e _

end Regex

end SolidityScan
