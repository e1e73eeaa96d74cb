/-
# Line endings

Lines may end with a newline alone, or with a carriage return before the newline.  The return stays
on the line that it ends, so it makes every later line start one byte later and changes nothing
else: an offset, moved on by the newlines before it, is still in the same line and column, and the
snippet of the line loses the return with the other blanks at its end.

* `Text.split_withReturns` : the lines of the longer text, each with its return;
* `LineIndex.starts_withReturns` : a line starts later by as many bytes as there are lines before
  it;
* `SourceFile.withReturns_same_places` : offsets have the same positions and snippets in both texts.
-/
import Mathlib.Data.List.Forall2
import SolidityScan.Proofs.Source.Spans

namespace SolidityScan

open List (Forall₂)

/-! ## Returns before newlines -/

namespace Text

/-- The text with a carriage return before every newline, whether there was one already or not. -/
def withReturns (cs : List Char) : List Char :=
  cs.flatMap fun c => if c = '\n' then ['\r', '\n'] else [c]

theorem withReturns_newline (cs : List Char) :
    withReturns ('\n' :: cs) = '\r' :: '\n' :: withReturns cs := rfl

theorem withReturns_of_ne {c : Char} (h : c ≠ '\n') (cs : List Char) :
    withReturns (c :: cs) = c :: withReturns cs := by
  rw [withReturns, List.flatMap_cons, if_neg h]
  rfl

theorem byteSize_withReturns (cs : List Char) :
    byteSize (withReturns cs) = byteSize cs + cs.count '\n' := by
  induction cs with
  | nil => rfl
  | cons c cs ih =>
    by_cases hc : c = '\n'
    · subst hc
      have hreturn : ('\r').utf8Size = 1 := rfl
      rw [withReturns_newline, byteSize_cons, byteSize_cons, byteSize_cons, ih,
        List.count_cons_self, hreturn]
      omega
    · rw [withReturns_of_ne hc, byteSize_cons, byteSize_cons, ih, List.count_cons_of_ne hc]
      omega

/-- The second line is the first one, with or without a return at its end. -/
def SameButReturn (line line' : List Char) : Prop :=
  line' = line ∨ line' = line ++ ['\r']

/-- Between newlines stand the same lines as before, each with its return. -/
theorem split_withReturns (cs : List Char) :
    Forall₂ SameButReturn (split '\n' cs) (split '\n' (withReturns cs)) := by
  induction cs with
  | nil => exact .cons (Or.inl rfl) .nil
  | cons c cs ih =>
    by_cases hc : c = '\n'
    · subst hc
      exact .cons (Or.inr rfl) ih
    · rw [withReturns_of_ne hc, split, split, if_neg hc, if_neg hc]
      -- the character stands in front of both first lines
      cases hsplit : split '\n' cs with
      | nil => exact absurd (length_split '\n' cs) (by simp [hsplit])
      | cons line lines =>
        rw [hsplit] at ih
        cases hsplit' : split '\n' (withReturns cs) with
        | nil =>
          rw [hsplit'] at ih
          cases ih
        | cons line' lines' =>
          rw [hsplit'] at ih
          obtain ⟨hline, hlines⟩ := List.forall₂_cons.1 ih
          refine .cons ?_ hlines
          exact hline.imp (congrArg (c :: ·)) (congrArg (c :: ·))

/-- A blank at the end of a text makes no difference to trimming. -/
theorem trim_append_blank {b : Char} (hb : isBlank b = true) (cs : List Char) :
    trim (cs ++ [b]) = trim cs := by
  have htail : [b].dropWhile isBlank = [] := List.dropWhile_cons_of_pos hb
  have hend : ∀ cs : List Char, trimEnd (cs ++ [b]) = trimEnd cs := by
    intro cs
    rw [trimEnd, trimEnd, List.reverse_append, List.reverse_singleton, List.singleton_append,
      List.dropWhile_cons_of_pos hb]
  have hstart : trimStart (cs ++ [b]) =
      if (trimStart cs).isEmpty then [] else trimStart cs ++ [b] := by
    rw [trimStart, List.dropWhile_append, htail, trimStart]
  rw [trim, trim, hstart]
  by_cases hblank : (trimStart cs).isEmpty = true
  · rw [if_pos hblank, List.isEmpty_iff.1 hblank]
  · rw [if_neg hblank, hend]

theorem SameButReturn.trim_eq {line line' : List Char} (h : SameButReturn line line') :
    trim line' = trim line := by
  rcases h with rfl | rfl
  · rfl
  · exact trim_append_blank (by decide) line

end Text

open Text

/-! ## Line starts -/

namespace LineIndex

/-- The starts after the first, in a text that itself starts `k` bytes later. -/
theorem afterNewlines_withReturns (offset k : Nat) (cs : List Char) :
    afterNewlines (offset + k) (withReturns cs) =
      (afterNewlines offset cs).mapIdx fun i start => start + (k + i + 1) := by
  induction cs generalizing offset k with
  | nil => rfl
  | cons c cs ih =>
    by_cases hc : c = '\n'
    · subst hc
      have hsize : ('\n').utf8Size = 1 := rfl
      have hreturn : ('\r').utf8Size = 1 := rfl
      have hstart : offset + k + 1 + 1 = offset + 1 + (k + 1) := by omega
      rw [withReturns_newline, afterNewlines, if_neg (by decide), afterNewlines, if_pos rfl,
        afterNewlines, if_pos rfl, hsize, hreturn, hstart, ih (offset + 1) (k + 1),
        List.mapIdx_cons]
      congr 2
      funext i start
      omega
    · have hstart : offset + k + c.utf8Size = offset + c.utf8Size + k := by omega
      rw [withReturns_of_ne hc, afterNewlines, if_neg hc, afterNewlines, if_neg hc, hstart, ih]

variable {text text' : String} (h : text'.toList = withReturns text.toList)

include h

/-- **A line starts later by as many bytes as there are lines before it.** -/
theorem starts_withReturns :
    (ofText text').starts = (ofText text).starts.mapIdx fun i start => start + i := by
  show 0 :: afterNewlines 0 text'.toList = (0 :: afterNewlines 0 text.toList).mapIdx _
  have hstarts := afterNewlines_withReturns 0 0 text.toList
  simp only [Nat.zero_add, Nat.add_zero] at hstarts
  rw [h, hstarts, List.mapIdx_cons]

theorem lineCount_withReturns : (ofText text').lineCount = (ofText text).lineCount := by
  rw [lineCount, starts_withReturns h, List.length_mapIdx, lineCount]

/-- The text gets longer by as many bytes as there are lines before its last one. -/
theorem size_withReturns :
    (ofText text').size = (ofText text).size + ((ofText text).lineCount - 1) := by
  have hlines : (ofText text).lineCount = text.toList.count '\n' + 1 :=
    length_startsFrom 0 text.toList
  show byteSize text'.toList = byteSize text.toList + _
  rw [h, byteSize_withReturns, hlines, Nat.add_sub_cancel]

/-- The span of a line moves on by as many bytes as there are lines before it, and may end with a
return. -/
theorem lineSpan?_withReturns {line start stop : Nat}
    (hspan : (ofText text).lineSpan? line = some (start, stop)) :
    ∃ stop', (ofText text').lineSpan? line = some (start + (line - 1), stop') ∧
      stop + (line - 1) ≤ stop' := by
  obtain ⟨hpos, hstart, hnext⟩ := lineSpan?_eq_some_iff.1 hspan
  have hstart' : (ofText text').starts[line - 1]? = some (start + (line - 1)) := by
    rw [starts_withReturns h, List.getElem?_mapIdx, hstart]
    rfl
  have hmoved : (ofText text').starts[line]? = (ofText text).starts[line]?.map (· + line) := by
    rw [starts_withReturns h, List.getElem?_mapIdx]
  rcases hnext with hnext | ⟨hnone, hstop⟩
  · refine ⟨stop + line, lineSpan?_eq_some_iff.2 ?_, by omega⟩
    refine ⟨hpos, hstart', Or.inl ?_⟩
    rw [hmoved, hnext, Option.map_some, Nat.add_right_comm]
  · -- the last line: all others stand before it
    have hlast : line = (ofText text).lineCount := by
      have hle := ((isSome_lineSpan?_iff (ofText text) line).1 (by rw [hspan]; rfl)).2
      exact Nat.le_antisymm hle (List.getElem?_eq_none_iff.1 hnone)
    refine ⟨(ofText text').size, lineSpan?_eq_some_iff.2 ?_, ?_⟩
    · refine ⟨hpos, hstart', Or.inr ⟨?_, rfl⟩⟩
      rw [hmoved, hnone, Option.map_none]
    · rw [size_withReturns h, hstop, hlast]

/-- An offset that moves on by the newlines before it stays in its line and column. -/
theorem lineColumn?_withReturns {offset line column : Nat}
    (hplace : (ofText text).lineColumn? offset = some (line, column)) :
    (ofText text').lineColumn? (offset + (line - 1)) = some (line, column) := by
  obtain ⟨start, stop, hspan, hstart, hstop, hcolumn⟩ :=
    lineColumn?_eq_some_iff.1 hplace
  obtain ⟨stop', hspan', hle⟩ := lineSpan?_withReturns h hspan
  exact lineColumn?_eq_some_iff.2
    ⟨_, _, hspan', by omega, by omega, by omega⟩

end LineIndex

/-! ## Files -/

namespace SourceFile

/-- The file with a carriage return before every newline. -/
def withReturns (f : SourceFile) : SourceFile :=
  { f with text := String.ofList (Text.withReturns f.text.toList) }

theorem toList_text_withReturns (f : SourceFile) :
    f.withReturns.text.toList = Text.withReturns f.text.toList :=
  String.toList_ofList

/-- What is shown of a line, or nothing if it is blank. -/
def shown (line : List Char) : Option String :=
  if (trim line).isEmpty then none else some (String.ofList (trim line))

/-- The snippet of an offset depends on the number of its line and the text of that line. -/
theorem snippet?_eq (f : SourceFile) (offset : Nat) :
    f.snippet? offset =
      (f.lines.lineColumn? offset).bind fun place => (f.lineText? place.1).bind shown := by
  unfold snippet? lineText?
  cases f.lines.lineColumn? offset with
  | none => rfl
  | some place =>
    cases h : f.lines.lineSpan? place.1 with
    | none => simp [h]
    | some span =>
      simp only [h, Option.bind_eq_bind, Option.bind_some]
      rfl

/-- A line shows the same text with its return and without. -/
theorem lineText?_withReturns (f : SourceFile) (n : Nat) :
    (f.withReturns.lineText? (n + 1)).bind shown = (f.lineText? (n + 1)).bind shown := by
  have hlines := split_withReturns f.text.toList
  rw [lineText?_succ, lineText?_succ, toList_text_withReturns]
  cases hline : (split '\n' f.text.toList)[n]? with
  | none =>
    have hle := List.getElem?_eq_none_iff.1 hline
    rw [hlines.length_eq] at hle
    rw [List.getElem?_eq_none hle]
  | some line =>
    obtain ⟨hlt, rfl⟩ := List.getElem?_eq_some_iff.1 hline
    have hlt' := hlines.length_eq ▸ hlt
    have hsame : trim (split '\n' (Text.withReturns f.text.toList))[n] =
        trim (split '\n' f.text.toList)[n] := (hlines.get hlt hlt').trim_eq
    rw [List.getElem?_eq_getElem hlt', Option.bind_some, Option.bind_some, shown, shown, hsame]

/-- **Line endings do not matter**: with a return before every newline a file has as many lines as
before, and an offset, moved on by the newlines before it, has the same position and the same
snippet. -/
theorem withReturns_same_places (f : SourceFile) :
    f.withReturns.lines.lineCount = f.lines.lineCount ∧
      ∀ offset ≤ f.size, ∃ position,
        f.resolve offset = .ok position ∧
        f.withReturns.resolve (offset + newlinesBefore (bytes f.text) offset) = .ok position ∧
        f.withReturns.snippet? (offset + newlinesBefore (bytes f.text) offset) =
          f.snippet? offset := by
  have htext := f.toList_text_withReturns
  refine ⟨LineIndex.lineCount_withReturns htext, fun offset hle => ?_⟩
  have hbytes : ¬ (bytes f.text).length < offset := by
    rw [length_bytes]
    exact Nat.not_lt.2 hle
  obtain ⟨column, hplace⟩ : ∃ column, f.lines.lineColumn? offset =
      some (newlinesBefore (bytes f.text) offset + 1, column) := by
    rw [lines, LineIndex.lineColumn?_ofText, if_neg hbytes]
    exact ⟨_, rfl⟩
  have hplace' : f.withReturns.lines.lineColumn? (offset + newlinesBefore (bytes f.text) offset) =
      some (newlinesBefore (bytes f.text) offset + 1, column) :=
    LineIndex.lineColumn?_withReturns htext hplace
  refine ⟨⟨f.path, newlinesBefore (bytes f.text) offset + 1, column⟩, ?_, ?_, ?_⟩
  · rw [resolve, hplace]
  · rw [resolve, hplace']
    rfl
  · rw [snippet?_eq, snippet?_eq, hplace, hplace', Option.bind_some, Option.bind_some,
      lineText?_withReturns]

/-- The first line has a return already, the second ends with a character of two bytes, and the
offset is that of the second newline. -/
theorem withReturns_same_places_mixed :
    let f : SourceFile := { path := "a.sol", text := "x;\r\n  é\n\ny" }
    8 ≤ f.size ∧ newlinesBefore (bytes f.text) 8 = 1 ∧
      f.withReturns.text = "x;\r\r\n  é\r\n\r\ny" ∧
      f.resolve 8 = .ok ⟨"a.sol", 2, 5⟩ ∧ f.withReturns.resolve 9 = .ok ⟨"a.sol", 2, 5⟩ ∧
      f.withReturns.snippet? 9 = f.snippet? 8 := by
  intro f
  have hsize : 8 ≤ f.size := by decide +kernel
  have hnewlines : newlinesBefore (bytes f.text) 8 = 1 := by decide +kernel
  have hresolve : f.resolve 8 = .ok ⟨"a.sol", 2, 5⟩ := by decide +kernel
  obtain ⟨position, hposition, hposition', hsnippet⟩ := f.withReturns_same_places.2 8 hsize
  rw [hnewlines] at hposition' hsnippet
  rw [hresolve] at hposition
  cases hposition
  exact ⟨hsize, hnewlines, by decide +kernel, hresolve, hposition', hsnippet⟩

end SourceFile

end SolidityScan
