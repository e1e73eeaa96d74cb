/-
# Matching from right to left

A pattern is matched at every place of a text in one pass from the right.  At each place the
machine knows what every character item would reach by what follows it, so the outcome there is
read off without search, and alternatives are decided by preference: the first that succeeds wins.

Main definitions: `Machine.trial` is the outcome at a place, `Machine.shift` moves the machine one
place to the left, `Machine.step` does both at once, and `Regex.cells` is the table of outcomes of a
whole text.
-/
import SolidityScan.Regex.Automaton
import SolidityScan.Regex.Factor

namespace SolidityScan

/-! ## The machine -/

/-- What the body of a lookaround does at a place: whether it is found, and how many branches are
given up before that; how many there are to give up in all, and in how many ways it is found. -/
structure Inspection where
  found : Bool
  before : Nat
  total : Nat
  ways : Nat

namespace Inspection

/-- A body that is decided as a whole is found. -/
def hit : Inspection := ⟨true, 0, 0, 1⟩

/-- A body that is decided as a whole is not found. -/
def miss : Inspection := ⟨false, 1, 1, 0⟩

end Inspection

/-- A pattern on its way through a text.  A character item remembers the outcome of what follows
it at the place to its right.  A part that is decided as a whole holds its own outcomes for the
places still to come, and the outcomes of what follows it for the places passed; a lookaround holds
its answers for the places still to come. -/
inductive Machine where
  | empty
  | char (s : CharSet) (next : Trial)
  | assert (a : Assertion)
  | seq (a b : Machine)
  | alt (a b : Machine)
  | star (body : Machine) (greedy : Bool)
  | plus (body : Machine) (greedy : Bool)
  | whole (answers : List Trial) (passed : List Cell)
  | look (negated : Bool) (answers : List Inspection)

namespace Machine

/-- The outcome of what follows a part that stops at the given offset. -/
def follow (offset : Nat) (k : Trial) (passed : List Cell) (stop toll : Nat) : Trial :=
  if stop = offset then k
  else
    match passed.find? (·.offset == stop) with
    | some c => c.trial
    | none => .deadEnd toll

/-- The outcome of a lookaround, if `k` is the outcome there of what follows it. -/
def inspect (negated : Bool) (i : Inspection) (toll : Nat) (k : Trial) : Trial :=
  match negated, i.found with
  | true, true => .deadEnd (i.before + toll)
  | true, false => k.after i.before
  | false, false => .deadEnd i.before
  | false, true =>
    if k.stop.isSome then k.after i.before else ⟨none, i.total + i.ways * k.abandoned⟩

/-- The outcome at a place, if `k` is the outcome there of what follows the pattern and `toll` is
the price of a dead end.  A round of a loop that consumes nothing leads nowhere. -/
def trial (toll : Nat) (s : Site) : Machine → Trial → Trial
  | empty, k => k
  | char set next, _ => if s.after.any set.contains then next else .deadEnd toll
  | assert a, k => if a.holds s then k else .deadEnd toll
  | seq a b, k => a.trial toll s (b.trial toll s k)
  | alt a b, k => (a.trial toll s k).orElse (b.trial toll s k)
  | star body greedy, k => .choose greedy (body.trial toll s (.deadEnd toll)) k
  | plus body greedy, k =>
    body.trial toll s (.choose greedy (body.trial toll s (.deadEnd toll)) k)
  | whole answers passed, k =>
    match answers.head? with
    | some ⟨some stop, abandoned⟩ => (follow s.offset k passed stop toll).after abandoned
    | some ⟨none, abandoned⟩ => ⟨none, abandoned⟩
    | none => .deadEnd toll
  | look negated answers, k =>
    match answers.head? with
    | some i => inspect negated i toll k
    | none => .deadEnd toll

/-- The machine for the place to the left, if `k` is the outcome here of what follows. -/
def shift (toll : Nat) (s : Site) : Machine → Trial → Machine
  | empty, _ => empty
  | char set _, k => char set k
  | assert a, _ => assert a
  | seq a b, k => seq (a.shift toll s (b.trial toll s k)) (b.shift toll s k)
  | alt a b, k => alt (a.shift toll s k) (b.shift toll s k)
  | star body greedy, k =>
    star (body.shift toll s (.choose greedy (body.trial toll s (.deadEnd toll)) k)) greedy
  | plus body greedy, k =>
    plus (body.shift toll s (.choose greedy (body.trial toll s (.deadEnd toll)) k)) greedy
  | whole answers passed, k => whole answers.tail (⟨s.offset, k⟩ :: passed)
  | look negated answers, _ => look negated answers.tail

/-- The outcome at a place together with the machine for the place to the left. -/
def step (toll : Nat) (s : Site) : Machine → Trial → Trial × Machine
  | seq a b, k =>
    let (k, b) := b.step toll s k
    let (k, a) := a.step toll s k
    (k, seq a b)
  | alt a b, k =>
    let (first, a) := a.step toll s k
    let (second, b) := b.step toll s k
    (first.orElse second, alt a b)
  | star body greedy, k =>
    let k := .choose greedy (body.trial toll s (.deadEnd toll)) k
    (k, star (body.step toll s k).2 greedy)
  | plus body greedy, k =>
    let (k, body) := body.step toll s (.choose greedy (body.trial toll s (.deadEnd toll)) k)
    (k, plus body greedy)
  | m, k => (m.trial toll s k, m.shift toll s k)

/-- A step finds the outcome and moves the machine. -/
theorem step_eq (toll : Nat) (s : Site) (m : Machine) (k : Trial) :
    m.step toll s k = (m.trial toll s k, m.shift toll s k) := by
  induction m generalizing k with
  | seq a b iha ihb => simp [step, trial, shift, iha, ihb]
  | alt a b iha ihb => simp [step, trial, shift, iha, ihb]
  | star body greedy ih => simp [step, trial, shift, ih]
  | plus body greedy ih => simp [step, trial, shift, ih]
  | _ => rfl

/-- Runs the machine over the places of a text, last place first; `done` is the outcome of reaching
its end at a place. -/
def run (toll : Nat) (done : Site → Trial) (m : Machine) (sites : List Site) : List Cell :=
  (sites.foldr
    (fun s (m, cells) =>
      let (t, m) := m.step toll s (done s)
      (m, ⟨s.offset, t⟩ :: cells))
    (m, [])).2

/-! ## Repetition -/

/-- The pattern `n` times over, followed by `m`. -/
def times (body : Machine) : Nat → Machine → Machine
  | 0, m => m
  | n + 1, m => seq body (times body n m)

/-- At most `n` rounds of the pattern. -/
def upTo (body : Machine) (greedy : Bool) : Nat → Machine
  | 0 => empty
  | n + 1 =>
    let round := seq body (upTo body greedy n)
    if greedy then alt round empty else alt empty round

/-- Between `least` and `most` rounds of the pattern, or `most` rounds if the bounds are not in
order. -/
def rounds (body : Machine) (least : Nat) (most : Option Nat) (greedy : Bool) : Machine :=
  match least, most with
  | least, some most => times body (min least most) (upTo body greedy (most - least))
  | 0, none => star body greedy
  | least + 1, none => times body least (plus body greedy)

/-- Rounds of a pattern on a text with `places` places.  If every round consumes something, no more
than that many are possible. -/
def boundedRounds (places : Nat) (e : Regex) (body : Machine) (least : Nat) (most : Option Nat)
    (greedy : Bool) : Machine :=
  if 0 < e.leastWidth then
    rounds body (min least places) (most.map (min (min least places + places))) greedy
  else
    rounds body least most greedy

end Machine

namespace Regex

/-! ## Patterns without lookaround -/

/-- The machine of a pattern without lookaround, which waits to the right of the last place. -/
def plainMachine (places : Nat) : Regex → Machine
  | empty => .empty
  | char s => .char s (.deadEnd 0)
  | assert a => .assert a
  | seq a b => .seq (a.plainMachine places) (b.plainMachine places)
  | alt a b => .alt (a.plainMachine places) (b.plainMachine places)
  | rep e least most greedy => (e.plainMachine places).boundedRounds places e least most greedy
  | group _ e => e.plainMachine places
  | atomic e => e.plainMachine places
  | look _ _ _ => .empty

/-- The outcomes of a pattern without lookaround, which counts no branches.  A loop whose rounds may
consume nothing is run as an automaton. -/
def plainCells (e : Regex) (sites : List Site) : List Cell :=
  let e := e.factored
  if e.hasIdleLoop then
    (Automaton.ofRegex e).cells sites
  else
    (e.plainMachine sites.length).run 0 .accept sites

/-! ## Patterns with lookaround -/

/-- The position of a part in a pattern with lookaround. -/
inductive Role where
  /-- A part by itself; `inner` tells that a search may come back to it. -/
  | alone (inner : Bool)
  /-- The last items of a sequence; `leads` tells that all items before them are decided as
  wholes. -/
  | tail (inner leads : Bool)

namespace Role

/-- The part is decided as a whole: it has no lookaround, and a search cannot come back to it or its
width is fixed. -/
def decides (e : Regex) : Role → Bool
  | alone inner => !inner && !e.backtracks
  | tail inner _ => !e.backtracks && (!inner || e.width?.isSome)

/-- A sequence in the given position, as a list of items. -/
def asTail : Role → Role
  | alone inner => tail inner true
  | tail inner leads => tail inner leads

/-- The first item is decided as a whole. -/
def decidesFirst (e : Regex) : Role → Bool
  | alone _ => false
  | tail _ leads => leads && !e.backtracks && e.width?.isSome

/-- The position of the items after the first, which may have been decided as a whole. -/
def next (decided : Bool) : Role → Role
  | alone inner => tail inner decided
  | tail inner _ => tail inner decided

/-- The position of a part of the only item. -/
def within : Role → Role
  | alone inner => alone inner
  | tail _ _ => alone true

end Role

/-- The machine of a part that is decided as a whole and counts as one branch. -/
def wholeMachine (sites : List Site) (e : Regex) : Machine :=
  if e.isDeterminate then
    e.plainMachine sites.length
  else
    let answers := (e.plainCells sites).map fun c =>
      if c.trial.stop.isSome then c.trial else .deadEnd 1
    .whole answers.reverse []

/-- What a body that is decided as a whole does at the places of a text. -/
def plainInspections (e : Regex) (sites : List Site) : List Inspection :=
  (e.plainCells sites).map fun c => if c.trial.stop.isSome then .hit else .miss

/-- What a body does at the places of a text.  The ways through it are counted by following each to
a dead end. -/
def inspections (m : Machine) (sites : List Site) : List Inspection :=
  let first := m.run 1 .accept sites
  let totals := m.run 1 (fun _ => .deadEnd 0) sites
  let counts := m.run 1 (fun _ => .deadEnd 1) sites
  (first.zip (totals.zip counts)).map fun (c, t, n) =>
    ⟨c.trial.stop.isSome, c.trial.abandoned, t.trial.abandoned,
      n.trial.abandoned - t.trial.abandoned⟩

/-- The answers of a lookaround at the places of a text, given what its body does there: right after
the place when looking ahead, and `width` characters before it when looking behind. -/
def lookAnswers (side : LookSide) (width : Nat) (found : List Inspection) : List Inspection :=
  match side with
  | .ahead => found
  | .behind => (List.replicate width Inspection.miss ++ found).take found.length

/-- The machine that waits to the right of the last place of a text. -/
def machine (sites : List Site) (r : Role) (e : Regex) : Machine :=
  if r.decides e then
    e.wholeMachine sites
  else
    match e with
    | empty => .empty
    | char s => .char s (.deadEnd 0)
    | assert a => .assert a
    | seq a b =>
      if r.asTail.decides (seq a b) then
        (seq a b).wholeMachine sites
      else if r.asTail.decidesFirst a then
        .seq (a.wholeMachine sites) (b.machine sites (r.next true))
      else
        .seq (a.machine sites (.alone true)) (b.machine sites (r.next false))
    | alt a b => .alt (a.machine sites r.within) (b.machine sites r.within)
    | rep e least most greedy =>
      let inside := if least = 0 ∧ most = some 1 then r.within else .alone true
      (e.machine sites inside).boundedRounds sites.length e least most greedy
    | group _ e => e.machine sites r.within
    | atomic e =>
      let cells := (e.machine sites (.alone false)).run 1 .accept sites
      .whole (cells.map (·.trial)).reverse []
    | look side negated e =>
      let found :=
        if e.backtracks then inspections (e.machine sites (.alone false)) sites
        else e.plainInspections sites
      .look negated (lookAnswers side (e.width?.getD 0) found).reverse

/-! ## Whole texts -/

/-- The outcome of the pattern at every place of the text.  Only a pattern with a lookaround, a word
boundary or an atomic part counts the branches that it gives up. -/
def cells (e : Regex) (text : List Char) : List Cell :=
  let sites := Site.all text
  if e.backtracks then (e.machine sites (.alone true)).run 1 .accept sites else e.plainCells sites

end Regex

end SolidityScan
