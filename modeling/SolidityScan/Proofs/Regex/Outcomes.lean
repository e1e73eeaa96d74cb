/-
# Outcomes part by part

A machine goes through the places of a text from right to left and keeps what it needs of the places
it has passed.  What it finds at a place is then a function of the places from there on and of the
outcome, at each of them, of what follows the pattern.  For a sequence this function is composed of
those of its parts, so that a pattern can be followed through a text from left to right after all.

* `Machine.past`, `Machine.outcome` : the machine after some places, and what it finds at the next
  one;
* `Machine.outcome_seq`, `Machine.outcome_char`, `Machine.outcome_star`, `Machine.outcome_look` :
  outcomes of a pattern by those of its parts;
* `Regex.lookAnswers_behind` : what a look behind for one character finds;
* `Regex.matchAt?_append` : a match in a text as an outcome.
-/
import SolidityScan.Proofs.Regex.Searches

namespace SolidityScan

/-- The outcome of reaching the end of the pattern at the first of the places. -/
def Trial.ends : List Site → Trial
  | [] => .deadEnd 0
  | s :: _ => .accept s

namespace Machine

/-- The machine after it has passed the places, the last one first, where `k` gives the outcome of
what follows the pattern at the first of some places. -/
def past (toll : Nat) (k : List Site → Trial) (m : Machine) : List Site → Machine
  | [] => m
  | s :: later => (m.past toll k later).shift toll s (k (s :: later))

/-- The outcome at the first of the places. -/
def outcome (toll : Nat) (k : List Site → Trial) (m : Machine) : List Site → Trial
  | [] => .deadEnd toll
  | s :: later => (m.past toll k later).trial toll s (k (s :: later))

variable {toll : Nat} {k : List Site → Trial}

/-! ## Parts -/

theorem past_seq (a b : Machine) (sites : List Site) :
    (seq a b).past toll k sites =
      seq (a.past toll (b.outcome toll k) sites) (b.past toll k sites) := by
  induction sites with
  | nil => rfl
  | cons s later ih =>
    rw [past, ih]
    rfl

/-- **What follows the first part of a sequence is the second part.** -/
theorem outcome_seq (a b : Machine) (sites : List Site) :
    (seq a b).outcome toll k sites = a.outcome toll (b.outcome toll k) sites := by
  cases sites with
  | nil => rfl
  | cons s later =>
    rw [outcome, past_seq]
    rfl

theorem past_char (set : CharSet) (next : Trial) (s : Site) (later : List Site) :
    (char set next).past toll k (s :: later) = char set (k (s :: later)) := by
  induction later generalizing s with
  | nil => rfl
  | cons t later ih =>
    rw [past, ih]
    rfl

/-- A character leads to the next place. -/
theorem outcome_char (set : CharSet) (next : Trial) (s t : Site) (later : List Site) :
    (char set next).outcome toll k (s :: t :: later) =
      if s.after.any set.contains then k (t :: later) else .deadEnd toll := by
  rw [outcome, past_char]
  rfl

theorem past_star (body : Machine) (greedy : Bool) (sites : List Site) :
    (star body greedy).past toll k sites =
      star (body.past toll ((star body greedy).outcome toll k) sites) greedy := by
  induction sites with
  | nil => rfl
  | cons s later ih =>
    rw [past, past, outcome, ih]
    rfl

/-- A loop over characters goes on with another round, or with what follows it. -/
theorem outcome_star (set : CharSet) (next : Trial) (greedy : Bool) (s t : Site)
    (later : List Site) :
    (star (char set next) greedy).outcome toll k (s :: t :: later) =
      .choose greedy
        (if s.after.any set.contains then
            (star (char set next) greedy).outcome toll k (t :: later)
          else .deadEnd toll)
        (k (s :: t :: later)) := by
  conv_lhs => rw [outcome, past_star, past_char]
  rfl

theorem past_look (negated : Bool) (answers : List Inspection) (sites : List Site) :
    (look negated answers).past toll k sites = look negated (answers.drop sites.length) := by
  induction sites with
  | nil => rfl
  | cons s later ih =>
    rw [past, ih, List.length_cons]
    exact congrArg (look negated) (List.tail_drop ..)

/-- A lookaround that has an answer for every place gives that of the place where it stands. -/
theorem outcome_look (negated : Bool) (answer : Site → Inspection) (earlier : List Site) (s : Site)
    (later : List Site) :
    (look negated ((earlier ++ s :: later).map answer).reverse).outcome toll k (s :: later) =
      inspect negated (answer s) toll (k (s :: later)) := by
  have hdrop : (((earlier ++ s :: later).map answer).reverse.drop later.length).head? =
      some (answer s) := by
    rw [List.map_append, List.map_cons, List.reverse_append, List.reverse_cons, List.append_assoc,
      List.drop_left' (by simp)]
    rfl
  rw [outcome, past_look, trial, hdrop]

/-! ## Runs -/

theorem run_cons (m : Machine) (s : Site) (later : List Site) :
    m.run toll .accept (s :: later) =
      ⟨s.offset, m.outcome toll .ends (s :: later)⟩ :: m.run toll .accept later := by
  have hpast : ∀ sites, (runAll toll .accept m sites).1 = m.past toll .ends sites := by
    intro sites
    induction sites with
    | nil => rfl
    | cons s later ih =>
      rw [runAll_cons, ih]
      rfl
  show (runAll toll .accept m (s :: later)).2 = _
  rw [runAll_cons, hpast]
  rfl

/-- A run finds the outcome at every place. -/
theorem mem_run (m : Machine) (earlier : List Site) (s : Site) (later : List Site) :
    ⟨s.offset, m.outcome toll .ends (s :: later)⟩ ∈ m.run toll .accept (earlier ++ s :: later) := by
  induction earlier with
  | nil =>
    rw [List.nil_append, run_cons]
    exact List.mem_cons_self
  | cons t earlier ih =>
    rw [List.cons_append, run_cons]
    exact List.mem_cons_of_mem _ ih

end Machine

/-! ## Texts -/

namespace Site

theorem exists_ofChars_eq (offset : Nat) (before : Option Char) (cs : List Char) :
    ∃ later, ofChars offset before cs = ⟨offset, before, cs.head?⟩ :: later := by
  cases cs with
  | nil => exact ⟨_, rfl⟩
  | cons c cs => exact ⟨_, rfl⟩

/-- The places of the rest of a text are the last ones of the whole. -/
theorem exists_ofChars_append (offset : Nat) (before : Option Char) (head tail : List Char) :
    ∃ earlier, ofChars offset before (head ++ tail) =
      earlier ++ ofChars (offset + Text.byteSize head) (head.getLast?.or before) tail := by
  induction head generalizing offset before with
  | nil => exact ⟨[], rfl⟩
  | cons c head ih =>
    obtain ⟨earlier, hearlier⟩ := ih (offset + c.utf8Size) (some c)
    refine ⟨⟨offset, before, some c⟩ :: earlier, ?_⟩
    rw [List.cons_append, ofChars, hearlier, Text.byteSize_cons, Nat.add_assoc,
      Lists.getLast?_cons_or, List.cons_append]

theorem exists_all_append (head tail : List Char) :
    ∃ earlier, all (head ++ tail) = earlier ++ ofChars (Text.byteSize head) head.getLast? tail := by
  obtain ⟨earlier, hearlier⟩ := exists_ofChars_append 0 none head tail
  rw [Nat.zero_add, Option.or_none] at hearlier
  exact ⟨earlier, hearlier⟩

end Site

theorem Trial.stop_choose_greedy (round out : Trial) :
    (Trial.choose true round out).stop = round.stop.or out.stop := by
  show (round.orElse out).stop = _
  unfold Trial.orElse
  cases hround : round.stop with
  | none => rfl
  | some stop => exact hround

theorem Trial.stop_ends (offset : Nat) (before : Option Char) (cs : List Char) :
    (Trial.ends (Site.ofChars offset before cs)).stop = some offset := by
  obtain ⟨later, hsites⟩ := Site.exists_ofChars_eq offset before cs
  rw [hsites]
  rfl

namespace Machine

variable {toll : Nat} {k : List Site → Trial} {offset stop : Nat} {before : Option Char}
  {cs : List Char}

/-- **A character is matched if the text starts with one of the set**, and what follows it matches
the rest. -/
theorem stop_outcome_char_iff {set : CharSet} {next : Trial} :
    ((char set next).outcome toll k (Site.ofChars offset before cs)).stop = some stop ↔
      ∃ c rest, cs = c :: rest ∧ set.contains c = true ∧
        (k (Site.ofChars (offset + c.utf8Size) (some c) rest)).stop = some stop := by
  cases cs with
  | nil =>
    constructor
    · intro h
      cases h
    · rintro ⟨c, rest, hcs, -⟩
      cases hcs
  | cons c rest =>
    obtain ⟨later, hlater⟩ := Site.exists_ofChars_eq (offset + c.utf8Size) (some c) rest
    rw [Site.ofChars, hlater, outcome_char, ← hlater, Option.any_some]
    constructor
    · intro h
      split_ifs at h with hset
      · exact ⟨c, rest, rfl, hset, h⟩
      · cases h
    · rintro ⟨d, tail, hcs, hset, hstop⟩
      cases hcs
      rw [if_pos hset, hstop]

/-- A greedy loop over characters stops as late as what follows it allows. -/
theorem stop_outcome_star (set : CharSet) (next : Trial) (c : Char) (rest : List Char) :
    ((star (char set next) true).outcome toll k (Site.ofChars offset before (c :: rest))).stop =
      (if set.contains c then ((star (char set next) true).outcome toll k
          (Site.ofChars (offset + c.utf8Size) (some c) rest)).stop else none).or
        (k (Site.ofChars offset before (c :: rest))).stop := by
  obtain ⟨later, hlater⟩ := Site.exists_ofChars_eq (offset + c.utf8Size) (some c) rest
  rw [Site.ofChars, hlater, outcome_star, Trial.stop_choose_greedy, Option.any_some]
  split_ifs <;> rfl

end Machine

/-! ## Looking behind for a character -/

namespace Regex

/-- The answer of a search for a character of the set. -/
def characterAnswer (set : CharSet) (c : Option Char) : Inspection :=
  if c.any set.contains then .hit else .miss

/-- A character of the set is found where it comes next. -/
theorem plainInspections_char (set : CharSet) (offset : Nat) (before : Option Char)
    (cs : List Char) :
    (char set).plainInspections (Site.ofChars offset before cs) =
      (Site.ofChars offset before cs).map fun s => characterAnswer set s.after := by
  have hrun : ∀ sites, (char set).plainInspections sites =
      ((Machine.char set (.deadEnd 0)).run 0 .accept sites).map fun c =>
        if c.trial.stop.isSome then .hit else .miss := fun _ => rfl
  rw [hrun]
  induction cs generalizing offset before with
  | nil => rfl
  | cons c cs ih =>
    have hrest := ih (offset + c.utf8Size) (some c)
    obtain ⟨later, hlater⟩ := Site.exists_ofChars_eq (offset + c.utf8Size) (some c) cs
    rw [hlater] at hrest
    rw [Site.ofChars, hlater, Machine.run_cons, List.map_cons, List.map_cons, hrest,
      Machine.outcome_char, characterAnswer]
    by_cases hset : set.contains c = true <;> simp [hset, Trial.ends, Trial.accept, Trial.deadEnd]

/-- **Looking behind for a character finds the one right before the place.** -/
theorem lookAnswers_behind (set : CharSet) (text : List Char) :
    lookAnswers .behind 1 ((char set).plainInspections (Site.all text)) =
      (Site.all text).map fun s => characterAnswer set s.before := by
  -- the answers are those of the places one to the left, with a miss at the start of the text
  have hshift : ∀ (offset : Nat) (before : Option Char) (cs : List Char),
      (characterAnswer set before ::
          (Site.ofChars offset before cs).map fun s => characterAnswer set s.after).take
        (Site.ofChars offset before cs).length =
      (Site.ofChars offset before cs).map fun s => characterAnswer set s.before := by
    intro offset before cs
    induction cs generalizing offset before with
    | nil => rfl
    | cons c cs ih =>
      rw [Site.ofChars, List.map_cons, List.map_cons, List.length_cons, List.take_succ_cons, ih]
  rw [Site.all, plainInspections_char, lookAnswers, List.length_map]
  exact hshift 0 none text

/-! ## Matches -/

/-- **The match at an offset of a text is the outcome at the places from there on.** -/
theorem matchAt?_append {e : Regex} (he : e.backtracks = true) (head tail : List Char) :
    e.matchAt? (head ++ tail) (Text.byteSize head) =
      ((e.machine (Site.all (head ++ tail)) (.alone true)).outcome 1 .ends
        (Site.ofChars (Text.byteSize head) head.getLast? tail)).stop := by
  obtain ⟨earlier, hsites⟩ := Site.exists_all_append head tail
  obtain ⟨later, hlater⟩ := Site.exists_ofChars_eq (Text.byteSize head) head.getLast? tail
  rw [hlater] at hsites
  have hcells : e.cells (head ++ tail) = (e.machine (Site.all (head ++ tail)) (.alone true)).run 1
      .accept (earlier ++ ⟨Text.byteSize head, head.getLast?, tail.head?⟩ :: later) := by
    rw [cells, if_pos he, ← hsites]
  rw [hlater]
  refine matchAt?_of_mem (c := ⟨Text.byteSize head, _⟩) ?_
  rw [hcells]
  exact Machine.mem_run ..

end Regex

end SolidityScan
