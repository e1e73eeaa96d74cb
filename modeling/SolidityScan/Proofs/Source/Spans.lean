/-
# Spans of lines and snippets

The spans of the index divide a text into its lines: the pieces between newlines, from the first to
the last.  Each span begins and ends between characters, so the text of a line can be cut out of the
text, and the snippet of an offset is what is left of the line that holds it when it is trimmed.

* `LineIndex.lineSpan?_of_line` : where the lines of a text stand;
* `SourceFile.snippet?_of_holds` : the snippet of an offset;
* `SourceFile.spans_and_snippets` : spans divide the text, and snippets are trimmed lines.
-/
import SolidityScan.Proofs.Source.Newlines
import SolidityScan.Proofs.Text.Boundaries
import SolidityScan.Proofs.Text.Pieces

namespace SolidityScan

open Text
open String (utf8EncodeChar)

/-! ## Lines of a text -/

namespace LineIndex

/-- A line without its newline has no line start in it. -/
theorem afterNewlines_append {line : List Char} (h : '\n' ∉ line) (offset : Nat)
    (rest : List Char) :
    afterNewlines offset (line ++ rest) = afterNewlines (offset + byteSize line) rest := by
  induction line generalizing offset with
  | nil => rfl
  | cons c line ih =>
    obtain ⟨hc, hline⟩ := not_or.1 (mt List.mem_cons.2 h)
    rw [List.cons_append, afterNewlines, if_neg (Ne.symm hc), ih hline, byteSize_cons,
      Nat.add_assoc]

/-- The line starts of a text that begins at `offset`, the first one included. -/
def startsFrom (offset : Nat) (cs : List Char) : List Nat :=
  offset :: afterNewlines offset cs

theorem startsFrom_line {line : List Char} (h : '\n' ∉ line) (offset : Nat) (rest : List Char) :
    startsFrom offset (line ++ '\n' :: rest) =
      offset :: startsFrom (offset + byteSize line + 1) rest := by
  rw [startsFrom, afterNewlines_append h, afterNewlines, if_pos rfl]
  rfl

theorem startsFrom_last {line : List Char} (h : '\n' ∉ line) (offset : Nat) :
    startsFrom offset line = [offset] := by
  have hnone := afterNewlines_append h offset []
  rw [List.append_nil] at hnone
  rw [startsFrom, hnone, afterNewlines]

theorem length_startsFrom (offset : Nat) (cs : List Char) :
    (startsFrom offset cs).length = cs.count '\n' + 1 := by
  rw [startsFrom, List.length_cons, afterNewlines_eq, List.length_idxsOf, Nat.add_right_cancel_iff]
  induction cs with
  | nil => rfl
  | cons c cs ih =>
    rw [List.flatMap_cons, List.count_append, ih]
    by_cases hc : c = '\n'
    · rw [hc, List.count_cons_self, Nat.add_comm]
      rfl
    · rw [List.count_cons_of_ne hc, List.count_eq_zero.2 (mt newlineByte_mem_encodeChar_iff.1 hc),
        Nat.zero_add]

/-- Every line starts after the lines before it, and the next one after its newline. -/
theorem exists_ends {lines : List (List Char)} (hlines : ∀ line ∈ lines, '\n' ∉ line) {n : Nat}
    {line : List Char} (hn : lines[n]? = some line) (offset : Nat) :
    ∃ head tail, ['\n'].intercalate lines = head ++ (line ++ tail) ∧
      (startsFrom offset (['\n'].intercalate lines))[n]? = some (offset + byteSize head) ∧
      ((startsFrom offset (['\n'].intercalate lines))[n + 1]? =
          some (offset + byteSize head + byteSize line + 1) ∨
        (startsFrom offset (['\n'].intercalate lines))[n + 1]? = none ∧ tail = []) := by
  induction lines generalizing n offset with
  | nil => cases hn
  | cons first rest ih =>
    obtain ⟨hfirst, hrest⟩ := List.forall_mem_cons.1 hlines
    cases rest with
    | nil =>
      rw [List.intercalate_singleton, startsFrom_last hfirst]
      cases n with
      | zero =>
        cases hn
        exact ⟨[], [], by simp, by simp, Or.inr ⟨rfl, rfl⟩⟩
      | succ n => cases hn
    | cons second more =>
      rw [List.intercalate_cons_cons, List.append_assoc, List.singleton_append,
        startsFrom_line hfirst]
      cases n with
      | zero =>
        cases hn
        exact ⟨[], _, rfl, rfl, Or.inl rfl⟩
      | succ n =>
        obtain ⟨head, tail, hjoin, hstart, hnext⟩ := ih hrest hn (offset + byteSize first + 1)
        have hsize : offset + byteSize (first ++ '\n' :: head) =
            offset + byteSize first + 1 + byteSize head := by
          rw [byteSize_append, byteSize_cons, show ('\n').utf8Size = 1 from rfl]
          omega
        refine ⟨first ++ '\n' :: head, tail, ?_, ?_, ?_⟩
        · rw [hjoin, List.append_assoc, List.cons_append]
        · rw [List.getElem?_cons_succ, hstart, hsize]
        · rw [List.getElem?_cons_succ, hsize]
          exact hnext

/-- A line of a text is what its span cuts out. -/
theorem lineSpan?_of_line {text : String} {n : Nat} {line : List Char}
    (h : (split '\n' text.toList)[n]? = some line) :
    ∃ head tail, text.toList = head ++ (line ++ tail) ∧
      (ofText text).lineSpan? (n + 1) = some (byteSize head, byteSize head + byteSize line) := by
  obtain ⟨head, tail, hjoin, hstart, hnext⟩ :=
    exists_ends (fun _ hmem => not_mem_of_mem_split hmem) h 0
  rw [intercalate_split] at hjoin hstart hnext
  rw [Nat.zero_add] at hstart hnext
  refine ⟨head, tail, hjoin, lineSpan?_eq_some_iff.2 ?_⟩
  refine ⟨Nat.succ_pos n, hstart, hnext.imp_right ?_⟩
  rintro ⟨hnone, rfl⟩
  refine ⟨hnone, ?_⟩
  show _ = byteSize text.toList
  rw [hjoin, List.append_nil, byteSize_append]

theorem lineCount_ofText (text : String) :
    (ofText text).lineCount = (split '\n' text.toList).length :=
  (length_startsFrom 0 text.toList).trans (length_split '\n' text.toList).symm

theorem isSome_lineSpan?_iff (x : LineIndex) (line : Nat) :
    (x.lineSpan? line).isSome = true ↔ 1 ≤ line ∧ line ≤ x.lineCount := by
  unfold lineSpan? lineCount
  rcases Nat.eq_zero_or_pos line with hzero | hpos
  · simp [hzero]
  · by_cases hlt : line - 1 < x.starts.length
    · simp only [hpos.ne', if_false, List.getElem?_eq_getElem hlt, Option.bind_eq_bind,
        Option.bind_some, Option.pure_def, Option.isSome_some, true_iff]
      omega
    · simp only [hpos.ne', if_false, List.getElem?_eq_none (Nat.not_lt.1 hlt), Option.bind_eq_bind,
        Option.bind_none, Option.isSome_none, Bool.false_eq_true, false_iff]
      omega

end LineIndex

namespace SourceFile

open LineIndex

/-- The text of a line, cut out at its span. -/
def lineText? (f : SourceFile) (n : Nat) : Option (List Char) :=
  (f.lines.lineSpan? n).bind fun span => slice? f.text.toList span.1 span.2

/-- The lines that the spans cut out are the pieces between newlines. -/
theorem lineText?_succ (f : SourceFile) (n : Nat) :
    f.lineText? (n + 1) = (split '\n' f.text.toList)[n]? := by
  cases h : (split '\n' f.text.toList)[n]? with
  | some line =>
    obtain ⟨head, tail, htext, hspan⟩ := lineSpan?_of_line h
    rw [lineText?, lines, hspan, Option.bind_some, htext, slice?_append]
  | none =>
    have hspan : f.lines.lineSpan? (n + 1) = none := by
      rw [← Option.not_isSome_iff_eq_none, isSome_lineSpan?_iff, lines, lineCount_ofText]
      have hlength := List.getElem?_eq_none_iff.1 h
      omega
    rw [lineText?, hspan, Option.bind_none]

/-- Where a line with a span stands in the text. -/
theorem exists_line_of_span {f : SourceFile} {n start stop : Nat}
    (h : f.lines.lineSpan? n = some (start, stop)) :
    ∃ head line tail, f.text.toList = head ++ (line ++ tail) ∧ '\n' ∉ line ∧
      start = byteSize head ∧ stop = byteSize head + byteSize line ∧ f.lineText? n = some line := by
  have hsome : (f.lines.lineSpan? n).isSome = true := by rw [h]; rfl
  obtain ⟨hpos, hle⟩ := (isSome_lineSpan?_iff f.lines n).1 hsome
  rw [lines, lineCount_ofText] at hle
  obtain ⟨m, rfl⟩ : ∃ m, n = m + 1 := ⟨n - 1, by omega⟩
  obtain ⟨line, hline⟩ : ∃ line, (split '\n' f.text.toList)[m]? = some line :=
    ⟨_, List.getElem?_eq_getElem hle⟩
  obtain ⟨head, tail, htext, hspan⟩ := lineSpan?_of_line hline
  rw [lines, hspan] at h
  cases h
  exact ⟨head, line, tail, htext, not_mem_of_mem_split (List.mem_of_getElem? hline), rfl, rfl,
    (lineText?_succ f m).trans hline⟩

/-- No newline byte stands between the ends of a span. -/
theorem not_newline_of_span {f : SourceFile} {n start stop i : Nat}
    (h : f.lines.lineSpan? n = some (start, stop)) (hstart : start ≤ i) (hstop : i < stop) :
    (bytes f.text)[i]? ≠ some newlineByte := by
  obtain ⟨head, line, tail, htext, hline, rfl, rfl, -⟩ := exists_line_of_span h
  intro hbyte
  rw [bytes, Utf8.toUTF8_eq_flatMap, htext, List.flatMap_append, List.flatMap_append,
    List.getElem?_append_right (by rwa [length_flatMap_encodeChar]), length_flatMap_encodeChar,
    List.getElem?_append_left (by rw [length_flatMap_encodeChar]; omega)] at hbyte
  obtain ⟨c, hc, hmem⟩ := List.mem_flatMap.1 (List.mem_of_getElem? hbyte)
  rw [newlineByte_mem_encodeChar_iff.1 hmem] at hc
  exact hline hc

/-! ## Snippets -/

/-- The line holds the offset: it lies in the span of the line, or right at its end. -/
def Holds (f : SourceFile) (n offset : Nat) : Prop :=
  ∃ start stop, f.lines.lineSpan? n = some (start, stop) ∧ start ≤ offset ∧ offset ≤ stop

/-- Every offset of a file is held by one line. -/
theorem exists_holds {f : SourceFile} {offset : Nat} (h : offset ≤ f.size) :
    ∃ n, ∀ m, f.Holds m offset ↔ m = n := by
  refine ⟨f.lines.starts.countP (· ≤ offset), fun m => ⟨?_, ?_⟩⟩
  · rintro ⟨start, stop, hspan, hstart, hstop⟩
    exact (countP_eq_of_span hspan hstart hstop).symm
  · rintro rfl
    exact exists_span h

/-- What is shown of a line: nothing if it is blank, or else the line without the blanks at its
ends. -/
structure ShownAs (line : List Char) (snippet : Option String) : Prop where
  none_iff : snippet = none ↔ ∀ c ∈ line, isBlank c = true
  trims : ∀ s, snippet = some s → Trims line s.toList
  ne_empty : ∀ s, snippet = some s → s ≠ ""

theorem shownAs_trim (line : List Char) :
    ShownAs line (if (trim line).isEmpty then none else some (String.ofList (trim line))) := by
  by_cases hblank : trim line = []
  · rw [if_pos (List.isEmpty_iff.2 hblank)]
    refine ⟨iff_of_true rfl (trim_eq_nil_iff.1 hblank), ?_, ?_⟩
    · rintro s ⟨⟩
    · rintro s ⟨⟩
  · rw [if_neg (mt List.isEmpty_iff.1 hblank)]
    refine ⟨iff_of_false (by simp) (mt trim_eq_nil_iff.2 hblank), ?_, ?_⟩
    · rintro s ⟨⟩
      rw [String.toList_ofList]
      exact trims_trim line
    · rintro s ⟨⟩ hempty
      have hnil := congrArg String.toList hempty
      rw [String.toList_ofList] at hnil
      exact hblank hnil

/-- The snippet of an offset shows the line that holds it. -/
theorem snippet?_of_holds {f : SourceFile} {n offset : Nat} (h : f.Holds n offset) :
    ∃ line, f.lineText? n = some line ∧ '\n' ∉ line ∧ ShownAs line (f.snippet? offset) := by
  obtain ⟨start, stop, hspan, hstart, hstop⟩ := h
  obtain ⟨head, line, tail, -, hline, -, -, htext⟩ := exists_line_of_span hspan
  refine ⟨line, htext, hline, ?_⟩
  have hcolumn : f.lines.lineColumn? offset = some (n, offset - start + 1) :=
    lineColumn?_eq_some_iff.2 ⟨start, stop, hspan, hstart, hstop, rfl⟩
  have hslice : slice? f.text.toList start stop = some line := by
    rwa [lineText?, hspan, Option.bind_some] at htext
  have hsnippet : f.snippet? offset =
      if (trim line).isEmpty then none else some (String.ofList (trim line)) := by
    simp only [snippet?, hcolumn, hspan, hslice, Option.bind_eq_bind, Option.bind_some]
  rw [hsnippet]
  exact shownAs_trim line

theorem snippet?_eq_none_of_lt {f : SourceFile} {offset : Nat} (h : f.size < offset) :
    f.snippet? offset = none := by
  have hnone : f.lines.lineColumn? offset = none := (f.lines.lineColumn?_eq_none_iff offset).2 h
  simp only [snippet?, hnone, Option.bind_eq_bind, Option.bind_none]

/-! ## All lines and all snippets -/

/-- The spans of the file divide its text into the given lines. -/
structure DividesInto (f : SourceFile) (lines : List (List Char)) : Prop where
  span_iff : ∀ n, (f.lines.lineSpan? n).isSome = true ↔ 1 ≤ n ∧ n ≤ f.lines.lineCount
  length : lines.length = f.lines.lineCount
  lineText : ∀ n, f.lineText? (n + 1) = lines[n]?
  /-- Joined by newlines the lines are the text. -/
  joined : ['\n'].intercalate lines = f.text.toList
  no_newline : ∀ n start stop, f.lines.lineSpan? n = some (start, stop) →
    ∀ i, start ≤ i → i < stop → (bytes f.text)[i]? ≠ some newlineByte
  /-- A line begins and ends between characters. -/
  between : ∀ n start stop, f.lines.lineSpan? n = some (start, stop) →
    start ∈ boundaries f.text.toList ∧ stop ∈ boundaries f.text.toList

/-- The snippets of the file are its lines without the blanks at their ends. -/
structure ShowsLines (f : SourceFile) : Prop where
  past_end : ∀ offset, f.size < offset → f.snippet? offset = none
  /-- The snippet shows the only line that holds the offset, whether that lies between characters or
  not. -/
  line : ∀ offset, offset ≤ f.size → ∃ n line, (∀ m, f.Holds m offset ↔ m = n) ∧
    f.lineText? n = some line ∧ ShownAs line (f.snippet? offset)
  no_newline : ∀ offset s, f.snippet? offset = some s → '\n' ∉ s.toList

theorem dividesInto_split (f : SourceFile) : f.DividesInto (split '\n' f.text.toList) where
  span_iff := isSome_lineSpan?_iff f.lines
  length := (lineCount_ofText f.text).symm
  lineText := lineText?_succ f
  joined := intercalate_split '\n' f.text.toList
  no_newline _ _ _ hspan _ := not_newline_of_span hspan
  between n start stop hspan := by
    obtain ⟨head, line, tail, htext, -, rfl, rfl, -⟩ := exists_line_of_span hspan
    refine ⟨mem_boundaries_iff.2 ⟨head, line ++ tail, htext, rfl⟩, ?_⟩
    exact mem_boundaries_iff.2
      ⟨head ++ line, tail, by rw [htext, List.append_assoc], byteSize_append _ _⟩

theorem showsLines (f : SourceFile) : f.ShowsLines where
  past_end _ := snippet?_eq_none_of_lt
  line offset hle := by
    obtain ⟨n, hn⟩ := exists_holds hle
    obtain ⟨line, htext, -, hshown⟩ := snippet?_of_holds ((hn n).2 rfl)
    exact ⟨n, line, hn, htext, hshown⟩
  no_newline offset s hs := by
    have hle : offset ≤ f.size := by
      by_contra hpast
      rw [snippet?_eq_none_of_lt (Nat.not_le.1 hpast)] at hs
      cases hs
    obtain ⟨n, hn⟩ := exists_holds hle
    obtain ⟨line, -, hline, hshown⟩ := snippet?_of_holds ((hn n).2 rfl)
    -- what is left of a line is part of it
    obtain ⟨front, back, rfl, -, -⟩ := (hshown.trims s hs).between
    exact fun hmem => hline (List.mem_append_right _ (List.mem_append_left _ hmem))

/-- **Spans divide the text of a file into its lines, and snippets are trimmed lines.** -/
theorem spans_and_snippets (f : SourceFile) :
    (∃ lines, f.DividesInto lines) ∧ f.ShowsLines :=
  ⟨⟨_, f.dividesInto_split⟩, f.showsLines⟩

end SourceFile

end SolidityScan
