/-
# Scans with a guard

A scan with a guard jumps from match to match: past a match that it reports, and to the next
character after one that the guard rules out or that is empty.  It reports the matches that are
chosen by going through all offsets between characters in turn, with a cursor at the end of the last
match taken.

* `Guard.window` : the text that a guard sees, as the longest end that fits;
* `Guard.blocks` : whether the guard rules out a match at an offset;
* `Pattern.greedy` : the choice of matches, offset by offset;
* `Pattern.eq_greedy_of_scanGuarded` : a scan that gives a result gives this choice;
* `Pattern.succeeds_scanGuarded` : a scan whose searches give results gives one.
-/
import Mathlib.Data.List.TakeWhile
import SolidityScan.Detector
import SolidityScan.Proofs.Regex.Searches

namespace SolidityScan

/-! ## The text that a guard sees -/

namespace Guard

/-- The longest end of a text that fits into the window of a guard. -/
def window (head : List Char) : List Char :=
  (head.tails.find? fun seen => Text.byteSize seen ≤ guardWindow).getD []

theorem before_append (head tail done : List Char) :
    before (Text.byteSize head) done (head ++ tail) = head.reverse ++ done := by
  induction head generalizing done with
  | nil =>
    cases tail with
    | nil => rfl
    | cons c cs => rw [List.nil_append, before, Text.byteSize_nil, if_pos rfl]; rfl
  | cons c cs ih =>
    have hpos := c.utf8Size_pos
    rw [List.cons_append, before, Text.byteSize_cons, if_neg (by omega), Nat.add_sub_cancel_left,
      ih, List.reverse_cons, List.append_assoc, List.singleton_append]

/-- One more character at the far end is taken only if all fits. -/
theorem tail_concat (room : Nat) (cs : List Char) (c : Char) :
    tail room (cs ++ [c]) =
      if Text.byteSize (cs ++ [c]) ≤ room then cs ++ [c] else tail room cs := by
  induction cs generalizing room with
  | nil =>
    rw [List.nil_append, tail, tail, tail, Text.byteSize_cons, Text.byteSize_nil, Nat.add_zero]
  | cons d cs ih =>
    rw [List.cons_append, tail, tail, ih, Text.byteSize_cons]
    by_cases hd : d.utf8Size ≤ room
    · rw [if_pos hd, if_pos hd]
      by_cases hall : Text.byteSize (cs ++ [c]) ≤ room - d.utf8Size
      · rw [if_pos hall, if_pos (by omega)]
      · rw [if_neg hall, if_neg (by omega)]
    · rw [if_neg hd, if_neg hd, if_neg (by omega)]

theorem reverse_tail_reverse (room : Nat) (head : List Char) :
    (tail room head.reverse).reverse =
      (head.tails.find? fun seen => Text.byteSize seen ≤ room).getD [] := by
  induction head with
  | nil => simp [tail]
  | cons c cs ih =>
    have hsize : Text.byteSize (cs.reverse ++ [c]) = Text.byteSize (c :: cs) := by
      rw [← List.reverse_cons, Text.byteSize_reverse]
    rw [List.reverse_cons, tail_concat, hsize, List.tails_cons, List.find?_cons]
    by_cases hall : Text.byteSize (c :: cs) ≤ room
    · rw [if_pos hall, decide_eq_true hall, Option.getD_some, List.reverse_append,
        List.reverse_reverse, List.reverse_singleton, List.singleton_append]
    · rw [if_neg hall, decide_eq_false hall, ih]

/-- A guard sees the longest end, of the text up to an offset, that fits into its window. -/
theorem view_append (head tail : List Char) :
    view (head ++ tail) (Text.byteSize head) = window head := by
  rw [view, before_append, List.append_nil, reverse_tail_reverse, window]

theorem window_suffix (head : List Char) : window head <:+ head := by
  unfold window
  cases hseen : head.tails.find? fun seen => decide (Text.byteSize seen ≤ guardWindow) with
  | none => exact List.nil_suffix
  | some seen => exact (List.mem_tails _ _).1 (List.mem_of_find?_eq_some hseen)

/-- The text that a guard sees is cut out between characters. -/
theorem slice?_view {text : List Char} {q : Nat} (hq : q ∈ Text.boundaries text) :
    Text.slice? text (q - Text.byteSize (view text q)) q = some (view text q) := by
  obtain ⟨head, tail, rfl, rfl⟩ := Text.mem_boundaries_iff.1 hq
  rw [view_append]
  obtain ⟨unseen, hunseen⟩ := window_suffix head
  have hsize : Text.byteSize head = Text.byteSize unseen + Text.byteSize (window head) := by
    rw [← Text.byteSize_append, hunseen]
  have htext : head ++ tail = unseen ++ (window head ++ tail) := by
    rw [← List.append_assoc, hunseen]
  rw [hsize, Nat.add_sub_cancel, htext, Text.slice?_append]

/-- The guard matches somewhere in the text that it sees from the offset. -/
def blocks (g : Guard) (text : List Char) (q : Nat) : Bool :=
  let seen := window ((Text.takeBytes? q text).getD [])
  (Text.boundaries seen).any fun r => (g.regex.matchAt? seen r).isSome

/-- What the guard says of a match at an offset, if it says anything. -/
theorem eq_blocks_of_holds {g : Guard} {text : List Char} {q : Nat} {answer : Bool}
    (hq : q ∈ Text.boundaries text) (h : g.holds text q = .ok answer) :
    answer = g.blocks text q := by
  obtain ⟨head, tail, rfl, rfl⟩ := Text.mem_boundaries_iff.1 hq
  obtain ⟨found, hfind, hanswer⟩ := bind_eq_ok.1 h
  cases hanswer
  rw [view_append] at hfind
  have hfound := congrArg Option.isSome (Cell.find_eq_findSome? hfind)
  rw [Option.isSome_map] at hfound
  rw [blocks, Text.takeBytes?_append, Option.getD_some, ← g.regex.offsets_cells, hfound,
    Bool.eq_iff_iff, List.findSome?_isSome_iff, List.any_map, List.any_eq_true]
  refine exists_congr fun c => and_congr_right fun hc => ?_
  rw [Option.isSome_map, Function.comp_apply, Regex.matchAt?_of_mem hc]

end Guard

/-! ## Choosing matches offset by offset -/

namespace Pattern

/-- The matches taken at the given offsets.  A match is taken if it starts at the cursor or after it
and is not blocked; the cursor then goes to its end, or to the next offset if the match is empty. -/
def greedy (stopAt? : Nat → Option Nat) (blocked : Nat → Bool) : Nat → List Nat → List Match
  | _, [] => []
  | cursor, q :: later =>
    match stopAt? q with
    | none => greedy stopAt? blocked cursor later
    | some stop =>
      if cursor ≤ q ∧ blocked q = false then
        ⟨q, stop⟩ :: greedy stopAt? blocked (if stop = q then later.headD (q + 1) else stop) later
      else greedy stopAt? blocked cursor later

variable {stopAt? : Nat → Option Nat} {blocked : Nat → Bool} {cursor : Nat}

/-- Every match that is taken is the match at its start. -/
theorem stop_of_mem_greedy {offsets : List Nat} {m : Match}
    (h : m ∈ greedy stopAt? blocked cursor offsets) : stopAt? m.start = some m.stop := by
  induction offsets generalizing cursor with
  | nil => cases h
  | cons q later ih =>
    rw [greedy] at h
    split at h
    · exact ih h
    · next stop hstop =>
      split at h
      · rcases List.mem_cons.1 h with rfl | h
        · exact hstop
        · exact ih h
      · exact ih h

/-- Nothing is taken before the cursor, nor where nothing matches. -/
theorem greedy_skip {skipped : List Nat} (h : ∀ q ∈ skipped, q < cursor ∨ stopAt? q = none)
    (later : List Nat) :
    greedy stopAt? blocked cursor (skipped ++ later) = greedy stopAt? blocked cursor later := by
  induction skipped with
  | nil => rfl
  | cons q skipped ih =>
    obtain ⟨hq, hskipped⟩ := List.forall_mem_cons.1 h
    rw [List.cons_append, greedy]
    cases hstop : stopAt? q with
    | none => exact ih hskipped
    | some stop =>
      have hlt : q < cursor := hq.resolve_right (by rw [hstop]; exact Option.some_ne_none stop)
      dsimp only
      rw [if_neg (by omega)]
      exact ih hskipped

theorem greedy_eq_nil {offsets : List Nat} (h : ∀ q ∈ offsets, stopAt? q = none) :
    greedy stopAt? blocked cursor offsets = [] := by
  have hskip : greedy stopAt? blocked cursor (offsets ++ []) = greedy stopAt? blocked cursor [] :=
    greedy_skip (fun q hq => Or.inr (h q hq)) []
  rwa [List.append_nil] at hskip

theorem greedy_blocked {q stop : Nat} (hstop : stopAt? q = some stop) (hblocked : blocked q = true)
    (later : List Nat) :
    greedy stopAt? blocked cursor (q :: later) = greedy stopAt? blocked cursor later := by
  rw [greedy, hstop]
  dsimp only
  rw [hblocked, if_neg (by simp)]

theorem greedy_taken {q stop : Nat} (hstop : stopAt? q = some stop) (hblocked : blocked q = false)
    (hq : cursor ≤ q) (later : List Nat) :
    greedy stopAt? blocked cursor (q :: later) =
      ⟨q, stop⟩ ::
        greedy stopAt? blocked (if stop = q then later.headD (q + 1) else stop) later := by
  rw [greedy, hstop]
  dsimp only
  rw [if_pos ⟨hq, hblocked⟩]

/-- After a match is taken, the cursor stands so that the places that the scan leaves out are
passed, and is not past any of the others. -/
theorem greedy_next (m : Match) {rest : List Cell} (hsorted : rest.Pairwise (·.offset < ·.offset)) :
    ∃ cursor, (∀ c ∈ m.next rest, cursor ≤ c.offset) ∧
      greedy stopAt? blocked
          (if m.stop = m.start then (rest.map (·.offset)).headD (m.start + 1) else m.stop)
          (rest.map (·.offset)) =
        greedy stopAt? blocked cursor ((m.next rest).map (·.offset)) := by
  unfold Match.next
  by_cases hempty : m.start = m.stop
  · rw [if_pos hempty, if_pos hempty.symm]
    refine ⟨_, ?_, rfl⟩
    cases rest with
    | nil =>
      intro c hc
      cases hc
    | cons d rest =>
      intro c hc
      show d.offset ≤ c.offset
      exact Cell.head_le hsorted hc
  · rw [if_neg hempty, if_neg (Ne.symm hempty)]
    refine ⟨m.stop, fun c hc => Cell.le_offset_of_mem_dropBefore hsorted hc, ?_⟩
    have hsplit := List.takeWhile_append_dropWhile
      (p := fun c : Cell => c.offset < m.stop) (l := rest)
    rw [← congrArg (List.map (·.offset)) hsplit, List.map_append]
    refine greedy_skip ?_ _
    intro q hq
    obtain ⟨c, hc, rfl⟩ := List.mem_map.1 hq
    exact Or.inl (by simpa using List.mem_takeWhile_imp hc)

/-- What is known at the places by offset: where matches stop, and what the guard says if it says
anything. -/
structure Reflects (stopAt? : Nat → Option Nat) (blocked : Nat → Bool)
    (holds : Nat → Except SearchError Bool) (cells : List Cell) : Prop where
  ascending : cells.Pairwise (·.offset < ·.offset)
  stops : ∀ c ∈ cells, stopAt? c.offset = c.trial.stop
  answers : ∀ c ∈ cells, ∀ answer, holds c.offset = .ok answer → answer = blocked c.offset

theorem Reflects.sublist {holds : Nat → Except SearchError Bool} {cells rest : List Cell}
    (h : Reflects stopAt? blocked holds cells) (hrest : rest.Sublist cells) :
    Reflects stopAt? blocked holds rest where
  ascending := h.ascending.sublist hrest
  stops c hc := h.stops c (hrest.subset hc)
  answers c hc := h.answers c (hrest.subset hc)

/-- **A scan with a guard that gives a result takes the matches that are chosen offset by
offset.** -/
theorem eq_greedy_of_scanGuarded {budget : Nat} {holds : Nat → Except SearchError Bool}
    {cells : List Cell} {ms : List Match} (hcells : Reflects stopAt? blocked holds cells)
    (hcursor : ∀ c ∈ cells, cursor ≤ c.offset) (h : scanGuarded budget holds cells = .ok ms) :
    ms = greedy stopAt? blocked cursor (cells.map (·.offset)) := by
  induction hn : cells.length using Nat.strongRecOn generalizing cells ms cursor with
  | _ n ih =>
    rcases scanGuarded_cases h with ⟨hfind, rfl⟩ | ⟨m, rest, hfind, hmore⟩
    · refine (greedy_eq_nil ?_).symm
      intro q hq
      obtain ⟨c, hc, rfl⟩ := List.mem_map.1 hq
      exact (hcells.stops c hc).trans (Cell.find_eq_none hfind c hc)
    · have hlt := Cell.length_lt_of_find hfind
      obtain ⟨skipped, c, rfl, hskipped, hstart, hstop⟩ := Cell.find_eq_some hfind
      have hc : c ∈ skipped ++ c :: rest := List.mem_append_right _ List.mem_cons_self
      have hrest := (Cell.suffix_of_find hfind).sublist
      have hstopAt : stopAt? m.start = some m.stop := by
        rw [hstart, hcells.stops c hc, hstop]
      have hanswer : ∀ answer, holds m.start = .ok answer → answer = blocked m.start := by
        rw [hstart]
        exact hcells.answers c hc
      -- nothing is taken at the places that the search has passed
      have hskip : ∀ q ∈ skipped.map (·.offset), q < cursor ∨ stopAt? q = none := by
        intro q hq
        obtain ⟨d, hd, rfl⟩ := List.mem_map.1 hq
        exact Or.inr ((hcells.stops d (List.mem_append_left _ hd)).trans (hskipped d hd))
      rw [List.map_append, List.map_cons, greedy_skip hskip, ← hstart]
      rcases hmore with ⟨hguard, hmore⟩ | ⟨hguard, more, hmore, rfl⟩
      · rw [greedy_blocked hstopAt (hanswer true hguard).symm]
        exact ih _ (by omega) (hcells.sublist hrest) (fun d hd => hcursor d (hrest.subset hd))
          hmore rfl
      · have hle : cursor ≤ m.start := by
          rw [hstart]
          exact hcursor c hc
        obtain ⟨cursor', hcursor', hnext⟩ := greedy_next m (hcells.sublist hrest).ascending
        rw [greedy_taken hstopAt (hanswer false hguard).symm hle, hnext]
        have hshorter := m.length_next_le rest
        exact congrArg (m :: ·)
          (ih _ (by omega) (hcells.sublist ((m.next_sublist rest).trans hrest)) hcursor' hmore rfl)

/-- A scan gives a result if all searches at remaining places do, and the guard does wherever there
is a match. -/
theorem succeeds_scanGuarded {budget : Nat} {holds : Nat → Except SearchError Bool}
    {cells : List Cell} (hfind : ∀ rest, rest <:+ cells → Succeeds (Cell.find budget 0 rest))
    (hholds : ∀ c ∈ cells, c.trial.stop ≠ none → Succeeds (holds c.offset)) :
    Succeeds (scanGuarded budget holds cells) := by
  induction hn : cells.length using Nat.strongRecOn generalizing cells with
  | _ n ih =>
    have hlater : ∀ rest, rest <:+ cells → rest.length < n →
        Succeeds (scanGuarded budget holds rest) := by
      intro rest hrest hlt
      exact ih _ hlt (fun r hr => hfind r (hr.trans hrest))
        (fun c hc => hholds c (hrest.subset hc)) rfl
    obtain ⟨found, hfound⟩ := hfind cells (List.suffix_refl _)
    rw [scanGuarded]
    split
    · next e he => exact absurd ⟨found, hfound⟩ (he ▸ not_succeeds_error e)
    · exact succeeds_ok _
    · next m rest he =>
      have hlt := Cell.length_lt_of_find he
      have hnext := m.length_next_le rest
      have hrest := Cell.suffix_of_find he
      obtain ⟨c, hc, hstart, hstop⟩ := Cell.exists_mem_of_find he
      have hguard : Succeeds (holds m.start) := by
        rw [hstart]
        exact hholds c hc (by rw [hstop]; exact Option.some_ne_none _)
      refine hguard.bind fun answer => ?_
      refine Succeeds.ite (hlater rest hrest (by omega)) ?_
      exact (hlater _ ((m.next_suffix rest).trans hrest) (by omega)).bind fun more => succeeds_ok _

/-! ## Hits -/

/-- The matches chosen in a text by going through all its offsets, from the first on. -/
def chosen (p : Pattern) (g : Guard) (text : List Char) : List Match :=
  greedy (p.regex.matchAt? text) (g.blocks text) 0 (Text.boundaries text)

theorem reflects_cells (p : Pattern) (g : Guard) (text : List Char) :
    Reflects (p.regex.matchAt? text) (g.blocks text) (g.holds text) (p.regex.cells text) where
  ascending := p.regex.cells_ascending text
  stops _ hc := Regex.matchAt?_of_mem hc
  answers c hc answer hanswer := by
    refine Guard.eq_blocks_of_holds ?_ hanswer
    rw [← p.regex.offsets_cells]
    exact List.mem_map_of_mem hc

variable {p : Pattern} {g : Guard} {text : String}

theorem eq_chosen_of_scan {ms : List Match}
    (h : ({ p with guard := some g } : Pattern).scan text = .ok ms) :
    ms = p.chosen g text.toList := by
  rw [chosen, ← p.regex.offsets_cells]
  exact eq_greedy_of_scanGuarded (p.reflects_cells g text.toList) (fun c _ => Nat.zero_le _) h

/-- A scan gives a result if all searches do. -/
theorem succeeds_scan
    (hsearch : ∀ q ∈ Text.boundaries text.toList, Succeeds (p.search text.toList q))
    (hguard : ∀ q stop, p.regex.matchAt? text.toList q = some stop →
      Succeeds (g.holds text.toList q)) :
    Succeeds (({ p with guard := some g } : Pattern).scan text) := by
  refine succeeds_scanGuarded (fun rest hrest => succeeds_find_of_suffix hsearch hrest) ?_
  intro c hc hstop
  obtain ⟨stop, hstop⟩ := Option.ne_none_iff_exists'.1 hstop
  exact hguard _ stop ((Regex.matchAt?_of_mem hc).trans hstop)

/-- **The hits of a scan with a guard are those chosen offset by offset.**  The scan gives them
whenever its searches give results, and it never gives others.  A search gives the first match from
where it begins; matches start and stop between characters, and so does the text that the guard
sees. -/
theorem guardedHits_eq_greedy (p : Pattern) (g : Guard) (f : SourceFile) :
    let text := f.text.toList
    let hits : List Hit :=
      (p.chosen g text).map fun m => { range := f.range m.start (m.stop - m.start) }
    ((∀ q ∈ Text.boundaries text, Succeeds (p.search text q)) →
        (∀ q stop, p.regex.matchAt? text q = some stop → Succeeds (g.holds text q)) →
        Ending.ofScan { p with guard := some g } f = .hits hits) ∧
      (∀ found, Ending.ofScan { p with guard := some g } f = .hits found → found = hits) ∧
      (∀ offset found, p.search text offset = .ok found → found = p.regex.first? text offset) ∧
      (∀ q stop, p.regex.matchAt? text q = some stop →
        q ∈ Text.boundaries text ∧ stop ∈ Text.boundaries text ∧ q ≤ stop) ∧
      ∀ q ∈ Text.boundaries text,
        Text.slice? text (q - Text.byteSize (Guard.view text q)) q = some (Guard.view text q) := by
  refine ⟨?_, ?_, fun _ _ h => search_eq_first? h, fun _ _ h => Regex.matchAt?_bounds h,
    fun _ hq => Guard.slice?_view hq⟩
  · intro hsearch hguard
    obtain ⟨ms, hms⟩ := succeeds_scan hsearch hguard
    rw [Ending.ofScan, hms, eq_chosen_of_scan hms]
  · intro found hfound
    unfold Ending.ofScan at hfound
    split at hfound
    · next ms hms =>
      rw [eq_chosen_of_scan hms] at hfound
      exact (Ending.hits.inj hfound).symm
    · cases hfound

/-- The pattern `ab|b*`. -/
def pairOrRun : Pattern where
  source := "ab|b*"
  regex := .alt (.seq (.char (.single 'a')) (.char (.single 'b')))
    (.rep (.char (.single 'b')) 0 none true)
  budget := 0

/-- The guard `x`. -/
def afterX : Guard where
  source := "x"
  regex := .seq (.char (.single 'x')) (.assert .textEnd)
  budget := 0

/-- The guard drops the match `ab`, and the `b` in it is found; empty matches stand before it, after
it and past a character of two bytes. -/
theorem guardedHits_eq_greedy_nested :
    Ending.ofScan { pairOrRun with guard := some afterX } { path := "run.sol", text := "xabé" } =
      .hits [{ range := ⟨0, 0, none⟩ }, { range := ⟨2, 1, none⟩ }, { range := ⟨3, 0, none⟩ },
        { range := ⟨5, 0, none⟩ }] := by
  let f : SourceFile := { path := "run.sol", text := "xabé" }
  have hsearch : ∀ q ∈ Text.boundaries f.text.toList,
      Succeeds (pairOrRun.search f.text.toList q) := by decide +kernel
  have hguard : ∀ q ∈ Text.boundaries f.text.toList, Succeeds (afterX.holds f.text.toList q) := by
    decide +kernel
  have hchosen : pairOrRun.chosen afterX f.text.toList = [⟨0, 0⟩, ⟨2, 3⟩, ⟨3, 3⟩, ⟨5, 5⟩] := by
    decide +kernel
  have hhits := (guardedHits_eq_greedy pairOrRun afterX f).1 hsearch
    fun q stop hstop => hguard q (Regex.matchAt?_bounds hstop).1
  rw [hchosen] at hhits
  exact hhits

end Pattern

end SolidityScan
