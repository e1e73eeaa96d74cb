/-
# Calls of `assert`

The pattern for calls of `assert` looks behind for a word or a dot, spells the name with its opening
parenthesis, and then takes all characters up to a closing one.  Where it matches is described on
the text itself; the scan takes these calls from left to right, so a call inside the parentheses of
another one is passed over.

* `Regex.matchAt?_callPattern_iff` : where a pattern of this form matches;
* `Detector.AssertCall` : a call of `assert` in a text;
* `Detector.detect_assertUsage` : which calls are reported.
-/
import SolidityScan.Catalog.Textual
import SolidityScan.Proofs.Regex.Disjoint
import SolidityScan.Proofs.Regex.Outcomes

namespace SolidityScan

/-! ## Patterns of calls -/

namespace Regex

/-- Any characters up to the next `close`, and this one. -/
def upTo (close : Char) : Regex :=
  .seq (.group true (.rep (.char (.compl (.single close))) 0 none true)) (.char (.single close))

/-- The word, and then the pattern. -/
def wordThen (word : List Char) (e : Regex) : Regex :=
  word.foldr (fun c e => .seq (.char (.single c)) e) e

theorem wordThen_cons (c : Char) (word : List Char) (e : Regex) :
    wordThen (c :: word) e = .seq (.char (.single c)) (wordThen word e) :=
  rfl

/-- The word where it does not stand right after a character of the set, and all that follows it up
to the next `close`. -/
def callPattern (set : CharSet) (word : List Char) (close : Char) : Regex :=
  .seq (.look .behind true (.char set)) (wordThen word (upTo close))

end Regex

namespace Machine

/-- The machine for any characters up to the next `close`. -/
def scanTo (close : Char) : Machine :=
  .seq (.star (.char (.compl (.single close)) (.deadEnd 0)) true)
    (.char (.single close) (.deadEnd 0))

/-- The machine for the word and then for what the other machine matches. -/
def spell (word : List Char) (m : Machine) : Machine :=
  word.foldr (fun c m => .seq (.char (.single c) (.deadEnd 0)) m) m

theorem spell_cons (c : Char) (word : List Char) (m : Machine) :
    spell (c :: word) m = .seq (.char (.single c) (.deadEnd 0)) (spell word m) :=
  rfl

end Machine

namespace Regex

theorem width?_wordThen (word : List Char) (close : Char) :
    (wordThen word (upTo close)).width? = none := by
  induction word with
  | nil => rfl
  | cons c word ih =>
    rw [wordThen_cons, width?, ih]
    rfl

/-- Every character of the word is an item of its own. -/
theorem machine_wordThen (sites : List Site) (word : List Char) (close : Char) :
    (wordThen word (upTo close)).machine sites (.tail true false) =
      Machine.spell word (Machine.scanTo close) := by
  induction word with
  | nil => rfl
  | cons c word ih =>
    -- the width is not fixed, so that no part is decided as a whole
    have hundecided :
        Role.decides (wordThen (c :: word) (upTo close)) (.tail true false) ≠ true := by
      simp [Role.decides, width?_wordThen]
    have hfirst : Role.decidesFirst (char (.single c)) (.tail true false) ≠ true :=
      Bool.false_ne_true
    have htail : Role.asTail (.tail true false) = .tail true false := rfl
    rw [wordThen_cons] at hundecided ⊢
    rw [machine, if_neg hundecided, htail, if_neg hundecided, if_neg hfirst]
    exact congrArg (Machine.seq _) ih

theorem machine_callPattern (sites : List Site) (set : CharSet) (word : List Char) (close : Char) :
    (callPattern set word close).machine sites (.alone true) =
      .seq (.look true (lookAnswers .behind 1 ((char set).plainInspections sites)).reverse)
        (Machine.spell word (Machine.scanTo close)) := by
  rw [← machine_wordThen sites]
  rfl

end Regex

/-! ## Where they match -/

namespace Text

/-- What stands before the first closing character of a text that starts with the given one. -/
theorem exists_first_cons_iff {close c : Char} {cs : List Char} {p : List Char → Prop} :
    (∃ arguments tail, c :: cs = arguments ++ close :: tail ∧ close ∉ arguments ∧ p arguments) ↔
      if c = close then p [] else
        ∃ arguments tail, cs = arguments ++ close :: tail ∧ close ∉ arguments ∧
          p (c :: arguments) := by
  constructor
  · rintro ⟨arguments, tail, hcs, hnot, hp⟩
    cases arguments with
    | nil =>
      cases hcs
      rwa [if_pos rfl]
    | cons a arguments =>
      cases hcs
      obtain ⟨hne, hnot⟩ := not_or.1 (List.mem_cons.not.1 hnot)
      rw [if_neg (Ne.symm hne)]
      exact ⟨arguments, tail, rfl, hnot, hp⟩
  · intro h
    split_ifs at h with hc
    · exact ⟨[], cs, by rw [hc, List.nil_append], List.not_mem_nil, h⟩
    · obtain ⟨arguments, tail, rfl, hnot, hp⟩ := h
      exact ⟨c :: arguments, tail, rfl, List.not_mem_cons_of_ne_of_not_mem (Ne.symm hc) hnot, hp⟩

end Text

namespace Machine

variable {toll : Nat} {k : List Site → Trial} {offset stop : Nat} {before : Option Char}
  {cs : List Char}

/-- A word is matched if the text starts with it. -/
theorem stop_outcome_spell_iff {word : List Char} {m : Machine} :
    ((spell word m).outcome toll k (Site.ofChars offset before cs)).stop = some stop ↔
      ∃ rest, cs = word ++ rest ∧ (m.outcome toll k (Site.ofChars (offset + Text.byteSize word)
        (word.getLast?.or before) rest)).stop = some stop := by
  induction word generalizing offset before cs with
  | nil => simp [spell]
  | cons c word ih =>
    have hoffset :
        offset + Text.byteSize (c :: word) = offset + c.utf8Size + Text.byteSize word := by
      rw [Text.byteSize_cons, Nat.add_assoc]
    rw [spell_cons, outcome_seq, stop_outcome_char_iff, hoffset, Lists.getLast?_cons_or]
    simp only [ih, CharSet.contains_single, beq_iff_eq]
    constructor
    · rintro ⟨_, _, rfl, rfl, rest, rfl, hstop⟩
      exact ⟨rest, rfl, hstop⟩
    · rintro ⟨rest, rfl, hstop⟩
      exact ⟨c, word ++ rest, rfl, rfl, rest, rfl, hstop⟩

/-- **All is matched up to the first closing character.**  The loop cannot go past it, and where it
stops earlier the closing character does not come next. -/
theorem stop_outcome_scanTo_iff {close : Char} :
    ((scanTo close).outcome toll .ends (Site.ofChars offset before cs)).stop = some stop ↔
      ∃ arguments tail, cs = arguments ++ close :: tail ∧ close ∉ arguments ∧
        stop = offset + Text.byteSize arguments + close.utf8Size := by
  rw [scanTo, outcome_seq]
  induction cs generalizing offset before with
  | nil =>
    constructor
    · intro h
      cases h
    · rintro ⟨arguments, tail, hnil, -⟩
      simp at hnil
  | cons c cs ih =>
    have hsingle : (∃ d rest, c :: cs = d :: rest ∧ (CharSet.single close).contains d = true ∧
        (Trial.ends (Site.ofChars (offset + d.utf8Size) (some d) rest)).stop = some stop) ↔
        c = close ∧ stop = offset + c.utf8Size := by
      simp [Trial.stop_ends, eq_comm (a := stop)]
    rw [stop_outcome_star, Option.or_eq_some_iff, stop_outcome_char_iff, hsingle,
      Text.exists_first_cons_iff]
    by_cases hc : c = close
    · have hcompl : (CharSet.compl (.single close)).contains c ≠ true := by
        simp [CharSet.contains, hc]
      rw [if_neg hcompl, if_pos hc]
      simp [hc]
    · have hcompl : (CharSet.compl (.single close)).contains c = true := by
        simp [CharSet.contains, hc]
      rw [if_pos hcompl, if_neg hc, ih]
      simp [hc, Nat.add_assoc]

/-- A negated search for a character before the place lets go on where that character is not of the
set. -/
theorem stop_inspect_negated_iff {set : CharSet} {c : Option Char} {rest : Trial} :
    (inspect true (Regex.characterAnswer set c) toll rest).stop = some stop ↔
      c.any set.contains = false ∧ rest.stop = some stop := by
  unfold Regex.characterAnswer
  split_ifs with hset
  · simp [inspect, Inspection.hit, Trial.deadEnd, hset]
  · simp [inspect, Inspection.miss, Trial.after, hset]

end Machine

namespace Regex

variable {set : CharSet} {word : List Char} {close : Char} {stop : Nat}

theorem matchAt?_callPattern_append_iff {head rest : List Char} :
    (callPattern set word close).matchAt? (head ++ rest) (Text.byteSize head) = some stop ↔
      head.getLast?.any set.contains = false ∧ ∃ arguments tail,
        rest = word ++ (arguments ++ close :: tail) ∧ close ∉ arguments ∧
        stop = Text.byteSize head + Text.byteSize word + Text.byteSize arguments +
          close.utf8Size := by
  obtain ⟨earlier, hsites⟩ := Site.exists_all_append head rest
  obtain ⟨later, hlater⟩ := Site.exists_ofChars_eq (Text.byteSize head) head.getLast? rest
  -- the search behind is asked at the first place of the rest, and the word and its end after it
  rw [matchAt?_append rfl, machine_callPattern, Machine.outcome_seq, lookAnswers_behind, hsites,
    hlater, Machine.outcome_look, ← hlater, Machine.stop_inspect_negated_iff,
    Machine.stop_outcome_spell_iff]
  simp only [Machine.stop_outcome_scanTo_iff]
  refine and_congr_right fun _ => ?_
  constructor
  · rintro ⟨_, rfl, arguments, tail, rfl, hnot, hstop⟩
    exact ⟨arguments, tail, rfl, hnot, hstop⟩
  · rintro ⟨arguments, tail, rfl, hnot, hstop⟩
    exact ⟨_, rfl, arguments, tail, rfl, hnot, hstop⟩

/-- **Where a pattern of a call matches.** -/
theorem matchAt?_callPattern_iff {text : List Char} {start : Nat} :
    (callPattern set word close).matchAt? text start = some stop ↔
      ∃ head arguments tail, text = head ++ (word ++ (arguments ++ close :: tail)) ∧
        start = Text.byteSize head ∧ head.getLast?.any set.contains = false ∧ close ∉ arguments ∧
        stop = start + Text.byteSize word + Text.byteSize arguments + close.utf8Size := by
  constructor
  · intro h
    obtain ⟨head, rest, rfl, rfl⟩ := Text.mem_boundaries_iff.1 (matchAt?_bounds h).1
    obtain ⟨hlast, arguments, tail, rfl, hnot, hstop⟩ := matchAt?_callPattern_append_iff.1 h
    exact ⟨head, arguments, tail, rfl, rfl, hlast, hnot, hstop⟩
  · rintro ⟨head, arguments, tail, rfl, rfl, hlast, hnot, hstop⟩
    exact matchAt?_callPattern_append_iff.2 ⟨hlast, arguments, tail, rfl, hnot, hstop⟩

end Regex

/-! ## Calls of `assert` -/

namespace Detector

/-- The stretch is a call of `assert` in the text: the name with its opening parenthesis, not right
after a word or a dot, and all that follows up to the first closing parenthesis. -/
def AssertCall (text : List Char) (m : Match) : Prop :=
  ∃ head arguments tail, text = head ++ ("assert(".toList ++ (arguments ++ ')' :: tail)) ∧
    m.start = Text.byteSize head ∧ (∀ c ∈ head.getLast?, Text.isWord c = false ∧ c ≠ '.') ∧
    ')' ∉ arguments ∧ m.stop = m.start + 7 + Text.byteSize arguments + 1

/-- The expression of the rule. -/
def assertRegex : Regex :=
  .callPattern (.union .word (.single '.')) "assert(".toList ')'

theorem parse?_assertUsage : Regex.parse? "(?<![\\w.])assert\\(([^)]*)\\)" = some assertRegex := by
  decide +kernel

theorem matchAt?_assertRegex_iff {text : List Char} {m : Match} :
    assertRegex.matchAt? text m.start = some m.stop ↔ AssertCall text m := by
  have hbefore : ∀ c : Option Char, c.any (CharSet.union .word (.single '.')).contains = false ↔
      ∀ d ∈ c, Text.isWord d = false ∧ d ≠ '.' := by
    intro c
    cases c <;> simp [CharSet.contains]
  rw [assertRegex, Regex.matchAt?_callPattern_iff]
  simp only [hbefore]
  rfl

theorem pattern_assertUsage {r : Catalog.TextualRule} (hr : r ∈ Catalog.textualRules)
    (hid : r.id = "assert-usage") :
    r.pattern = "(?<![\\w.])assert\\(([^)]*)\\)" ∧ r.guard = none := by
  revert r
  decide +kernel

/-- The hits for calls, from left to right, without those inside the parentheses of one before. -/
def callHits (f : SourceFile) (calls : List Match) : List Hit :=
  (Pattern.disjoint 0 calls).map fun m => { range := f.range m.start (m.stop - m.start) }

/-- The pattern of the rule. -/
def assertPattern (budget : Nat) : Pattern where
  source := "(?<![\\w.])assert\\(([^)]*)\\)"
  regex := assertRegex
  budget := budget

/-- The rule is compiled, whatever the budget. -/
theorem detector_assertUsage {r : Catalog.TextualRule} (hr : r ∈ Catalog.textualRules)
    (hid : r.id = "assert-usage") (budget : Nat) :
    ∃ d, r.detector budget = .ok d ∧ ∀ f, d.detect f = .ofScan (assertPattern budget) f := by
  obtain ⟨hpattern, hguard⟩ := pattern_assertUsage hr hid
  have hcompile : Pattern.compile r.pattern budget = .ok (assertPattern budget) := by
    rw [Pattern.compile, hpattern, parse?_assertUsage]
    rfl
  refine ⟨⟨r.id, r.title, r.description, r.severity, .textual (assertPattern budget)⟩, ?_,
    fun _ => rfl⟩
  rw [Catalog.TextualRule.detector, ofPattern, hcompile, hguard]
  rfl

theorem AssertCall.start_lt {text : List Char} {m : Match} (h : AssertCall text m) :
    m.start < m.stop := by
  obtain ⟨_, _, _, -, -, -, -, hstop⟩ := h
  omega

/-- A scan for calls takes them from left to right, without those inside one before. -/
theorem eq_disjoint_of_scan_assertPattern {budget : Nat} {text : String} {ms : List Match}
    (h : (assertPattern budget).scan text = .ok ms) :
    ms = Pattern.disjoint 0 (assertRegex.allMatches text.toList) := by
  refine Pattern.eq_disjoint_of_scan rfl ?_ h
  intro q hq
  exact Nat.lt_irrefl q (matchAt?_assertRegex_iff (m := ⟨q, q⟩).1 hq).start_lt

/-- **Which calls of `assert` are reported.**  The hits are the calls from left to right, without
those that start before the end of the one reported last.  The scan gives nothing else unless it
exceeds its budget, and for every file there are budgets that it does not exceed. -/
theorem detect_assertUsage {r : Catalog.TextualRule} (hr : r ∈ Catalog.textualRules)
    (hid : r.id = "assert-usage") (f : SourceFile) :
    ∃ (calls : List Match) (enough : Nat), calls.Pairwise (·.start < ·.start) ∧
      (∀ m, m ∈ calls ↔ AssertCall f.text.toList m) ∧
      ∀ budget, ∃ d, r.detector budget = .ok d ∧
        (d.detect f = .hits (callHits f calls) ∨
          d.detect f = .failed (.foreign SearchError.budgetExceeded.message)) ∧
        (enough ≤ budget → d.detect f = .hits (callHits f calls)) := by
  refine ⟨assertRegex.allMatches f.text.toList, Cell.spending (assertRegex.cells f.text.toList),
    assertRegex.allMatches_ascending _, ?_, ?_⟩
  · intro m
    rw [Regex.mem_allMatches_iff, matchAt?_assertRegex_iff]
  · intro budget
    obtain ⟨d, hd, hdetect⟩ := detector_assertUsage hr hid budget
    have hok : ∀ ms, (assertPattern budget).scan f.text = .ok ms →
        d.detect f = .hits (callHits f (assertRegex.allMatches f.text.toList)) := by
      intro ms hms
      rw [hdetect, Ending.ofScan, hms, callHits, ← eq_disjoint_of_scan_assertPattern hms]
    refine ⟨d, hd, ?_, ?_⟩
    · cases hscan : (assertPattern budget).scan f.text with
      | ok ms => exact .inl (hok ms hscan)
      | error e =>
        right
        rw [hdetect, Ending.ofScan, hscan]
    · intro henough
      obtain ⟨ms, hms⟩ : Succeeds ((assertPattern budget).scan f.text) :=
        Pattern.succeeds_scan_of_le rfl henough
      exact hok ms hms

/-- A text with a call of a member, a name that ends in `assert`, a call over two lines inside
another one and a call that is not closed. -/
def assertFile : SourceFile where
  path := "a.sol"
  text := "assert() é.assert(a) éassert(b) ¬assert(assert(x\n)) assert(y"

theorem detect_assertUsage_nested :
    let r := Catalog.textualRules.get ⟨18, by decide⟩
    r ∈ Catalog.textualRules ∧ r.id = "assert-usage" ∧
      ∃ calls : List Match, (∀ m, m ∈ calls ↔ AssertCall assertFile.text.toList m) ∧
        callHits assertFile calls = [{ range := ⟨0, 8, none⟩ }, { range := ⟨36, 17, none⟩ }] := by
  intro r
  have hr : r ∈ Catalog.textualRules := List.get_mem _ _
  have hid : r.id = "assert-usage" := rfl
  have hscan : (assertPattern 100).scan assertFile.text = .ok [⟨0, 8⟩, ⟨36, 53⟩] := by
    decide +kernel
  obtain ⟨calls, _, -, hcalls, hbudget⟩ := detect_assertUsage hr hid assertFile
  refine ⟨hr, hid, calls, hcalls, ?_⟩
  obtain ⟨d, hd, hends, -⟩ := hbudget 100
  obtain ⟨d', hd', hdetect⟩ := detector_assertUsage hr hid 100
  cases hd.symm.trans hd'
  rw [hdetect, Ending.ofScan, hscan] at hends
  rcases hends with hhits | hfailed
  · exact (Ending.hits.inj hhits).symm
  · cases hfailed

end Detector

end SolidityScan
