/-
# Newlines and the line index

The line of an offset is counted by the newline bytes before it, and its column from the last of
them.  The index does not count bytes: it keeps the offsets at which lines start and looks up the
last start that does not lie past the offset.  The two agree because a newline byte is never part of
a longer character, and because the starts ascend, so that those up to an offset are the first ones
of the index.

* `afterNewlines_eq` : the lines after the first start right after the newline bytes;
* `lineColumn?_eq_some_iff` : an offset is in the line whose span holds it;
* `ofText_exact` : the index agrees with the count of newline bytes, and is undone by the spans.
-/
import Mathlib.Data.List.DropRight
import SolidityScan.Proofs.Lists
import SolidityScan.Proofs.Source.Lines
import SolidityScan.Proofs.Text.Utf8

namespace SolidityScan

open String (utf8EncodeChar)

/-! ## Bytes of a text -/

namespace Text

/-- The byte that ends a line. -/
def newlineByte : UInt8 := 10

/-- The bytes of a text in UTF-8. -/
def bytes (text : String) : List UInt8 :=
  text.toUTF8.data.toList

/-- The number of newline bytes before an offset. -/
def newlinesBefore (bytes : List UInt8) (offset : Nat) : Nat :=
  (bytes.take offset).count newlineByte

/-- The number of bytes from the last newline byte before an offset, or else from the start, up to
the offset. -/
def bytesSinceNewline (bytes : List UInt8) (offset : Nat) : Nat :=
  ((bytes.take offset).rtakeWhile (· != newlineByte)).length

theorem length_flatMap_encodeChar (cs : List Char) :
    (cs.flatMap utf8EncodeChar).length = byteSize cs := by
  induction cs with
  | nil => rfl
  | cons c cs ih =>
    rw [List.flatMap_cons, List.length_append, ih, String.length_utf8EncodeChar, byteSize_cons]

theorem length_bytes (text : String) : (bytes text).length = byteSize text.toList := by
  rw [bytes, Utf8.toUTF8_eq_flatMap, length_flatMap_encodeChar]

/-- A newline byte stands for a newline and is part of no other character. -/
theorem newlineByte_mem_encodeChar_iff {c : Char} :
    newlineByte ∈ utf8EncodeChar c ↔ c = '\n' := by
  have hc : c = '\n' ↔ c.toNat = 10 := Char.toNat_inj.symm
  have hbyte : ∀ n, newlineByte = UInt8.ofNat n ↔ n % 256 = 10 := fun n =>
    eq_comm.trans Utf8.ofNat_eq_iff
  rw [hc, Utf8.encodeChar_eq]
  split_ifs
  all_goals
    simp only [List.mem_cons, List.not_mem_nil, or_false, hbyte]
    omega

end Text

namespace LineIndex

open Text

/-! ## Where lines start -/

/-- The lines after the first start right after the newline bytes. -/
theorem afterNewlines_eq (offset : Nat) (cs : List Char) :
    afterNewlines offset cs = (cs.flatMap utf8EncodeChar).idxsOf newlineByte (offset + 1) := by
  induction cs generalizing offset with
  | nil => rfl
  | cons c cs ih =>
    rw [afterNewlines, List.flatMap_cons, List.idxsOf_append, String.length_utf8EncodeChar, ih,
      show offset + 1 + c.utf8Size = offset + c.utf8Size + 1 from by omega]
    by_cases hc : c = '\n'
    · subst hc
      rfl
    · have hnone : (utf8EncodeChar c).idxsOf newlineByte (offset + 1) = [] := by
        rw [List.idxsOf_eq_nil_iff]
        intro b hb
        rw [beq_eq_false_iff_ne]
        rintro rfl
        exact hc (newlineByte_mem_encodeChar_iff.1 hb)
      rw [if_neg hc, hnone, List.nil_append]

theorem starts_ofText (text : String) :
    (ofText text).starts = 0 :: (bytes text).idxsOf newlineByte 1 := by
  show 0 :: afterNewlines 0 text.toList = _
  rw [afterNewlines_eq, bytes, Utf8.toUTF8_eq_flatMap]

theorem size_ofText (text : String) : (ofText text).size = (bytes text).length :=
  (length_bytes text).symm

/-- As many lines start up to an offset as there are newline bytes before it, and one more. -/
theorem countP_starts (bytes : List UInt8) {offset : Nat} (h : offset ≤ bytes.length) :
    (0 :: bytes.idxsOf newlineByte 1).countP (· ≤ offset) = newlinesBefore bytes offset + 1 := by
  have hlength : (bytes.take offset).length = offset := List.length_take_of_le h
  have hbefore : ((bytes.take offset).idxsOf newlineByte 1).countP (· ≤ offset) =
      newlinesBefore bytes offset := by
    rw [newlinesBefore, ← List.length_idxsOf, List.countP_eq_length]
    intro start hstart
    have hlt := List.lt_add_of_mem_idxsOf start hstart
    exact decide_eq_true (by omega)
  have hafter : ((bytes.drop offset).idxsOf newlineByte (1 + offset)).countP (· ≤ offset) = 0 := by
    rw [List.countP_eq_zero]
    intro start hstart
    have hge := List.ge_of_mem_idxsOf start hstart
    rw [decide_eq_true_eq]
    omega
  have hsplit : bytes.idxsOf newlineByte 1 = (bytes.take offset).idxsOf newlineByte 1 ++
      (bytes.drop offset).idxsOf newlineByte (1 + offset) := by
    conv_lhs => rw [← List.take_append_drop offset bytes, List.idxsOf_append, hlength]
  rw [List.countP_cons_of_pos (by simp), hsplit, List.countP_append, hbefore, hafter, Nat.add_zero]

/-- After bytes that end with a newline, or after none, the next line starts. -/
theorem getElem?_starts_of_getLast {front : List UInt8}
    (h : ∀ hne : front ≠ [], front.getLast hne = newlineByte) :
    (0 :: front.idxsOf newlineByte 1)[front.count newlineByte]? = some front.length := by
  rcases List.eq_nil_or_concat front with rfl | ⟨rest, b, rfl⟩
  · rfl
  · have hb : b = newlineByte := by simpa using h (by simp)
    subst hb
    have hcount : (rest.concat newlineByte).count newlineByte = rest.count newlineByte + 1 := by
      rw [List.concat_eq_append, List.count_append, List.count_singleton_self]
    have hstarts : (rest.concat newlineByte).idxsOf newlineByte 1 =
        rest.idxsOf newlineByte 1 ++ [rest.length + 1] := by
      rw [List.concat_eq_append, List.idxsOf_append, List.idxsOf_cons, beq_self_eq_true, if_pos rfl,
        List.idxsOf_nil, Nat.add_comm]
    rw [hcount, hstarts, List.getElem?_cons_succ, List.getElem?_append_right (by simp),
      List.length_idxsOf, Nat.sub_self, List.getElem?_cons_zero, List.length_concat]

/-- The last start up to an offset lies right after the last newline byte before it. -/
theorem getElem?_starts (bytes : List UInt8) {offset : Nat} (h : offset ≤ bytes.length) :
    (0 :: bytes.idxsOf newlineByte 1)[newlinesBefore bytes offset]? =
      some (offset - bytesSinceNewline bytes offset) := by
  -- the bytes before the offset are those up to the last newline, and those of the line so far
  obtain ⟨front, hfront⟩ : ∃ front, front = (bytes.take offset).rdropWhile (· != newlineByte) :=
    ⟨_, rfl⟩
  obtain ⟨line, hline⟩ : ∃ line, line = (bytes.take offset).rtakeWhile (· != newlineByte) :=
    ⟨_, rfl⟩
  have hbefore : front ++ line = bytes.take offset := by
    rw [hfront, hline]
    exact List.rdropWhile_append_rtakeWhile
  have hlength : front.length = offset - line.length := by
    have hsum := congrArg List.length hbefore
    rw [List.length_append, List.length_take_of_le h] at hsum
    omega
  have hcount : newlinesBefore bytes offset = front.count newlineByte := by
    have hnone : line.count newlineByte = 0 := by
      rw [List.count_eq_zero, hline]
      intro hmem
      simpa using List.mem_rtakeWhile_imp hmem
    rw [newlinesBefore, ← hbefore, List.count_append, hnone, Nat.add_zero]
  have hlast : (0 :: front.idxsOf newlineByte 1)[front.count newlineByte]? = some front.length := by
    refine getElem?_starts_of_getLast fun hne => ?_
    subst hfront
    simpa using List.rdropWhile_last_not _ _ hne
  have hstarts : 0 :: bytes.idxsOf newlineByte 1 = (0 :: front.idxsOf newlineByte 1) ++
      (line ++ bytes.drop offset).idxsOf newlineByte (1 + front.length) := by
    conv_lhs => rw [← List.take_append_drop offset bytes, ← hbefore, List.append_assoc,
      List.idxsOf_append]
    rfl
  rw [hcount, hstarts, List.getElem?_append_left (by simp), hlast, hlength, bytesSinceNewline,
    hline]

/-! ## Looking up lines -/

section Lookup

variable {x : LineIndex} {line start stop offset : Nat}

/-- A later line starts later. -/
theorem start_lt {i j s t : Nat} (hi : x.starts[i]? = some s)
    (hj : x.starts[j]? = some t) (hij : i < j) : s < t := by
  obtain ⟨hilt, rfl⟩ := List.getElem?_eq_some_iff.1 hi
  obtain ⟨hjlt, rfl⟩ := List.getElem?_eq_some_iff.1 hj
  exact List.pairwise_iff_getElem.1 x.ascending i j hilt hjlt hij

/-- A line goes up to the newline before the next line, and the last one up to the end of the
text. -/
theorem lineSpan?_eq_some_iff :
    x.lineSpan? line = some (start, stop) ↔ 0 < line ∧ x.starts[line - 1]? = some start ∧
      (x.starts[line]? = some (stop + 1) ∨ x.starts[line]? = none ∧ stop = x.size) := by
  unfold lineSpan?
  rcases Nat.eq_zero_or_pos line with hzero | hpos
  · simp [hzero]
  · cases hstart : x.starts[line - 1]? with
    | none => simp [hpos.ne']
    | some s =>
      have hsize : s ≤ x.size := x.le_size s (List.mem_of_getElem? hstart)
      cases hnext : x.starts[line]? with
      | none =>
        simp only [hpos.ne', if_false, Option.bind_eq_bind, Option.pure_def, Option.bind_some,
          Option.some.injEq, Prod.mk.injEq, Nat.max_eq_left hsize, reduceCtorEq, false_or, true_and]
        exact ⟨fun h => ⟨hpos, h.1, h.2.symm⟩, fun h => ⟨h.2.1, h.2.2.symm⟩⟩
      | some next =>
        have hlt : s < next := start_lt hstart hnext (by omega)
        have hmax : max (next - 1) s = next - 1 := by omega
        simp only [hpos.ne', if_false, Option.bind_eq_bind, Option.pure_def, Option.bind_some,
          Option.some.injEq, Prod.mk.injEq, hmax, reduceCtorEq, false_and, or_false]
        constructor
        · rintro ⟨rfl, rfl⟩
          exact ⟨hpos, rfl, by omega⟩
        · rintro ⟨-, rfl, rfl⟩
          exact ⟨rfl, by omega⟩

/-- Every offset of the text is in the span of the line that is found by counting starts. -/
theorem exists_span (h : offset ≤ x.size) :
    ∃ start stop, x.lineSpan? (x.starts.countP (· ≤ offset)) = some (start, stop) ∧
      start ≤ offset ∧ offset ≤ stop := by
  obtain ⟨line, hline⟩ : ∃ line, line = x.starts.countP (· ≤ offset) := ⟨_, rfl⟩
  have hpos : 0 < line := by
    rw [hline, ← Lists.le_iff_lt_countP x.ascending x.first]
    exact Nat.zero_le offset
  have hlength : line ≤ x.starts.length := hline ▸ List.countP_le_length
  obtain ⟨start, hstart⟩ : ∃ start, x.starts[line - 1]? = some start :=
    ⟨_, List.getElem?_eq_getElem (by omega)⟩
  have hle : start ≤ offset := by
    rw [Lists.le_iff_lt_countP x.ascending hstart, ← hline]
    omega
  rw [← hline]
  cases hnext : x.starts[line]? with
  | none => exact ⟨start, x.size, lineSpan?_eq_some_iff.2 ⟨hpos, hstart, .inr ⟨hnext, rfl⟩⟩, hle, h⟩
  | some next =>
    have hgt : ¬ next ≤ offset := by
      rw [Lists.le_iff_lt_countP x.ascending hnext, ← hline]
      omega
    refine ⟨start, next - 1, lineSpan?_eq_some_iff.2 ⟨hpos, hstart, .inl ?_⟩, hle, by omega⟩
    rw [hnext, show next - 1 + 1 = next from by omega]

/-- No other line has the offset in its span. -/
theorem countP_eq_of_span (hspan : x.lineSpan? line = some (start, stop))
    (hstart : start ≤ offset) (hstop : offset ≤ stop) : x.starts.countP (· ≤ offset) = line := by
  obtain ⟨hpos, hfirst, hnext⟩ := lineSpan?_eq_some_iff.1 hspan
  have hlow : line - 1 < x.starts.countP (· ≤ offset) :=
    (Lists.le_iff_lt_countP x.ascending hfirst offset).1 hstart
  have hhigh : x.starts.countP (· ≤ offset) ≤ line := by
    rcases hnext with hnext | ⟨hnone, -⟩
    · have hiff := Lists.le_iff_lt_countP x.ascending hnext offset
      omega
    · exact List.countP_le_length.trans (List.getElem?_eq_none_iff.1 hnone)
  omega

theorem stop_le_size (hspan : x.lineSpan? line = some (start, stop)) :
    stop ≤ x.size := by
  obtain ⟨-, -, hnext | ⟨-, rfl⟩⟩ := lineSpan?_eq_some_iff.1 hspan
  · have hle := x.le_size _ (List.mem_of_getElem? hnext)
    omega
  · exact le_rfl

/-- **An offset is in the line whose span holds it**, in the column that is counted from there. -/
theorem lineColumn?_eq_some_iff {column : Nat} :
    x.lineColumn? offset = some (line, column) ↔ ∃ start stop,
      x.lineSpan? line = some (start, stop) ∧ start ≤ offset ∧ offset ≤ stop ∧
        column = offset - start + 1 := by
  have hfound : ∀ {start stop}, x.lineSpan? line = some (start, stop) → start ≤ offset →
      offset ≤ stop → x.lineColumn? offset = some (line, offset - start + 1) := by
    intro start stop hspan hstart hstop
    have hsize : ¬ x.size < offset := Nat.not_lt.2 (hstop.trans (stop_le_size hspan))
    have hcount := countP_eq_of_span hspan hstart hstop
    obtain ⟨-, hfirst, -⟩ := lineSpan?_eq_some_iff.1 hspan
    simp [lineColumn?, hsize, hcount, hfirst]
  constructor
  · intro h
    have hsize : offset ≤ x.size := by
      by_contra hpast
      simp [lineColumn?, Nat.not_le.1 hpast] at h
    obtain ⟨start, stop, hspan, hstart, hstop⟩ := exists_span hsize
    obtain ⟨_, -, hplace⟩ := lineColumn?_eq_some h
    obtain ⟨rfl, -⟩ := Prod.mk.inj hplace
    rw [hfound hspan hstart hstop] at h
    exact ⟨start, stop, hspan, hstart, hstop, (Prod.mk.inj (Option.some.inj h)).2.symm⟩
  · rintro ⟨start, stop, hspan, hstart, hstop, rfl⟩
    exact hfound hspan hstart hstop

/-- The start of the line and the column lead back to the offset. -/
theorem offset_eq {column : Nat}
    (h : x.lineColumn? offset = some (line, column)) :
    ∃ start stop, x.lineSpan? line = some (start, stop) ∧ start + column - 1 = offset := by
  obtain ⟨start, stop, hspan, hstart, -, rfl⟩ := lineColumn?_eq_some_iff.1 h
  exact ⟨start, stop, hspan, by omega⟩

/-- A later offset is in a later line, or in a later column of the same line. -/
theorem lineColumn?_lt {a b : Nat} {p q : Nat × Nat} (hab : a < b)
    (ha : x.lineColumn? a = some p) (hb : x.lineColumn? b = some q) :
    Prod.Lex (· < ·) (· < ·) p q := by
  obtain ⟨line, column⟩ := p
  obtain ⟨line', column'⟩ := q
  rcases lineColumn?_mono hab.le ha hb with hline | ⟨hline, -⟩
  · exact Prod.Lex.left _ _ hline
  · -- both columns are counted from the start of the same line
    dsimp only at hline
    subst hline
    obtain ⟨start, stop, hspan, rfl⟩ := offset_eq ha
    obtain ⟨start', stop', hspan', rfl⟩ := offset_eq hb
    rw [hspan] at hspan'
    cases hspan'
    exact Prod.Lex.right _ (by omega)

end Lookup

/-! ## The index and the newlines of a text -/

theorem bytesSinceNewline_le (bytes : List UInt8) (offset : Nat) :
    bytesSinceNewline bytes offset ≤ offset :=
  (List.rtakeWhile_suffix _ _).length_le.trans (List.length_take_le offset bytes)

/-- Lines are counted by newline bytes, and columns from the last of them. -/
theorem lineColumn?_ofText (text : String) (offset : Nat) :
    (ofText text).lineColumn? offset =
      if (bytes text).length < offset then none
      else some (newlinesBefore (bytes text) offset + 1,
        bytesSinceNewline (bytes text) offset + 1) := by
  by_cases hpast : (bytes text).length < offset
  · rw [if_pos hpast, lineColumn?_eq_none_iff, size_ofText]
    exact hpast
  · have hle : offset ≤ (bytes text).length := Nat.not_lt.1 hpast
    have hcolumn := bytesSinceNewline_le (bytes text) offset
    have hback : offset - (offset - bytesSinceNewline (bytes text) offset) =
        bytesSinceNewline (bytes text) offset := by omega
    rw [if_neg hpast]
    simp only [lineColumn?, size_ofText, starts_ofText, countP_starts _ hle, Nat.add_sub_cancel,
      getElem?_starts _ hle, hback, if_neg hpast, Option.bind_eq_bind, Option.pure_def,
      Option.bind_some]

/-- The index tells the lines and columns of the text, and none of its lookups can fail. -/
structure Exact (text : String) (x : LineIndex) : Prop where
  /-- Lines are counted by newline bytes, and columns from the last of them. -/
  lineColumn : ∀ offset, x.lineColumn? offset =
    if (bytes text).length < offset then none
    else some (newlinesBefore (bytes text) offset + 1, bytesSinceNewline (bytes text) offset + 1)
  /-- A later offset is in a later line, or in a later column of the same line. -/
  increasing : ∀ a b p q, a < b → x.lineColumn? a = some p → x.lineColumn? b = some q →
    Prod.Lex (· < ·) (· < ·) p q
  /-- The start of the line and the column lead back to the offset. -/
  inverse : ∀ offset line column, x.lineColumn? offset = some (line, column) →
    ∃ start stop, x.lineSpan? line = some (start, stop) ∧ start + column - 1 = offset
  /-- The starts up to an offset come first, so that a binary search finds as many as there are. -/
  partitioned : ∀ offset i start, x.starts[i]? = some start →
    (start ≤ offset ↔ i < x.starts.countP (· ≤ offset))
  /-- There is a last start up to an offset, and it can be taken away from the offset. -/
  start_found : ∀ offset, 0 < x.starts.countP (· ≤ offset) ∧
    ∃ start, x.starts[x.starts.countP (· ≤ offset) - 1]? = some start ∧ start ≤ offset
  /-- There is a byte before every line but the first. -/
  next_pos : ∀ line next, 0 < line → x.starts[line]? = some next → 0 < next

/-- **The index of a text is exact**: it agrees with the newline bytes of the text at every offset,
it tells offsets apart in their order, and the spans of lines undo it. -/
theorem ofText_exact (text : String) : Exact text (ofText text) := by
  refine ⟨lineColumn?_ofText text, ?_, ?_, ?_, ?_, ?_⟩
  · intro a b p q hab ha hb
    exact lineColumn?_lt hab ha hb
  · intro offset line column h
    exact offset_eq h
  · intro offset i start hstart
    exact Lists.le_iff_lt_countP (ofText text).ascending hstart offset
  · intro offset
    have hpos : 0 < (ofText text).starts.countP (· ≤ offset) :=
      (Lists.le_iff_lt_countP (ofText text).ascending (ofText text).first offset).1
        (Nat.zero_le offset)
    obtain ⟨start, hstart⟩ := (ofText text).exists_start offset
    refine ⟨hpos, start, hstart, ?_⟩
    rw [Lists.le_iff_lt_countP (ofText text).ascending hstart]
    omega
  · intro line next hline hnext
    exact Nat.zero_lt_of_lt (start_lt (ofText text).first hnext hline)

end LineIndex

end SolidityScan
