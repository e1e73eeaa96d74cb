/-
# Reading findings back

The findings of a section stand between two fences, line by line: the path of a file where the
findings pass to it, blank lines around it, and for each finding a line that starts with its place.
What follows the place is text from the file and from the detector, and may be anything that keeps
to the line.  It can neither look like another kind of line nor end the block, because a line is
known by how it starts: by `File: ` or by a digit.

* `Text.lines`, `readPositions` : the lines of a text, and what a reader makes of the lines of a
  block;
* `blockLines` : the lines between the fences;
* `readPositions_blockLines` : the reader finds the places of the findings.
-/
import Mathlib.Data.List.Basic
import SolidityScan.Proofs.Text.Numerals
import SolidityScan.Report.Markdown

namespace SolidityScan

/-! ## Lines -/

namespace Text

/-- The lines of a text.  A newline ends a line, and what follows the last newline is a line of its
own if there is anything. -/
def lines : List Char → List (List Char)
  | [] => []
  | c :: rest =>
    if c = '\n' then [] :: lines rest
    else
      match lines rest with
      | [] => [[c]]
      | line :: more => (c :: line) :: more

theorem lines_line {line : List Char} (h : '\n' ∉ line) (rest : List Char) :
    lines (line ++ '\n' :: rest) = line :: lines rest := by
  induction line with
  | nil => simp [lines]
  | cons c line ih =>
    rw [List.mem_cons, not_or] at h
    rw [List.cons_append, lines, if_neg (Ne.symm h.1), ih h.2]

/-- Lines without a newline in them are found again after each of them was ended by one. -/
theorem lines_flatMap {content : List (List Char)} (h : ∀ line ∈ content, '\n' ∉ line)
    (rest : List Char) :
    lines (content.flatMap (· ++ ['\n']) ++ rest) = content ++ lines rest := by
  induction content with
  | nil => rfl
  | cons line content ih =>
    obtain ⟨hline, hcontent⟩ := List.forall_mem_cons.1 h
    have hsplit : (line :: content).flatMap (· ++ ['\n']) ++ rest =
        line ++ '\n' :: (content.flatMap (· ++ ['\n']) ++ rest) := by simp
    rw [hsplit, lines_line hline, ih hcontent, List.cons_append]

/-- A character that is not blank keeps what is before it from being trimmed. -/
theorem trimEnd_append_cons {c : Char} (hc : isBlank c = false) (front back : List Char) :
    trimEnd (front ++ c :: back) = front ++ c :: trimEnd back := by
  have hrest : (c :: front.reverse).dropWhile isBlank = c :: front.reverse :=
    List.dropWhile_cons_of_neg (by simp [hc])
  have hreverse : (front ++ c :: back).reverse = back.reverse ++ c :: front.reverse := by simp
  rw [trimEnd, trimEnd, hreverse, List.dropWhile_append, hrest]
  split_ifs with hblank
  · rw [List.isEmpty_iff.1 hblank]
    simp
  · simp

theorem mem_of_mem_trimEnd {cs : List Char} {c : Char} (h : c ∈ trimEnd cs) : c ∈ cs := by
  rw [trimEnd, List.mem_reverse] at h
  exact List.mem_reverse.1 ((List.dropWhile_suffix isBlank).subset h)

end Text

namespace Report

open Text

/-! ## A reader of the block -/

/-- Reads a number and the colon that ends it. -/
def numberBefore? (cs : List Char) : Option (Nat × List Char) :=
  match cs.dropWhile Char.isDigit with
  | ':' :: rest => (digits? (cs.takeWhile Char.isDigit)).map (·, rest)
  | _ => none

/-- Reads the line and the column at the start of a text. -/
def place? (cs : List Char) : Option (Nat × Nat) := do
  let (line, rest) ← numberBefore? cs
  let (column, _) ← numberBefore? rest
  return (line, column)

/-- Reads the heading of a file. -/
def path? : List Char → Option String
  | 'F' :: 'i' :: 'l' :: 'e' :: ':' :: ' ' :: path => some (String.ofList path)
  | _ => none

/-- The places on the lines of a block, of which the first ones are in the current file.  Any line
but a heading and an empty line has to start with a place. -/
def readPositions : Option String → List (List Char) → Option (List Position)
  | _, [] => some []
  | current, text :: rest =>
    match path? text with
    | some path => readPositions (some path) rest
    | none =>
      if text = [] then readPositions current rest
      else do
        let path ← current
        let (line, column) ← place? text
        let positions ← readPositions current rest
        return { path, line, column } :: positions

theorem numberBefore?_toDigits (n : Nat) (rest : List Char) :
    numberBefore? (Nat.toDigits 10 n ++ ':' :: rest) = some (n, rest) := by
  have hdecimal := isDecimal_toDigits n
  have hcolon : ¬ ':'.isDigit = true := by decide
  unfold numberBefore?
  rw [List.takeWhile_append_of_pos hdecimal.digits, List.dropWhile_append_of_pos hdecimal.digits,
    List.takeWhile_cons_of_neg hcolon, List.dropWhile_cons_of_neg hcolon, List.append_nil,
    digits?_eq_some_iff.2 hdecimal]
  rfl

/-! ## The lines of the block -/

/-- The place of a finding as it is written. -/
def placeChars (p : Position) : List Char :=
  Nat.toDigits 10 p.line ++ ':' :: (Nat.toDigits 10 p.column ++ [':'])

/-- What follows the place of a finding. -/
def remark (f : Finding) : List Char :=
  (f.snippet.elim [] fun s => ' ' :: s.toList) ++
    (f.message.elim [] fun s => ' ' :: '/' :: '/' :: ' ' :: s.toList)

/-- The heading of a file. -/
def headingChars (path : String) : List Char :=
  'F' :: 'i' :: 'l' :: 'e' :: ':' :: ' ' :: path.toList

/-- The lines around the heading of a file, where the findings pass to another path. -/
def headingLines (previous : Option String) (path : String) : List (List Char) :=
  match previous with
  | none => [headingChars path, []]
  | some before => if before = path then [] else [[], headingChars path, []]

/-- The line of a finding. -/
def findingChars (f : Finding) : List Char :=
  placeChars f.position ++ trimEnd (remark f)

/-- The lines of findings after one with the given path. -/
def blockLines (previous : Option String) : List Finding → List (List Char)
  | [] => []
  | f :: rest =>
    headingLines previous f.position.path ++
      findingChars f :: blockLines (some f.position.path) rest

theorem toList_findingLine (f : Finding) : (findingLine f).toList = findingChars f ++ ['\n'] := by
  have hcolon : (toString ":").toList = [':'] := rfl
  have hsnippet : (f.snippet.elim "" fun s => s!" {s}").toList =
      f.snippet.elim [] fun s => ' ' :: s.toList := by
    cases f.snippet with
    | none => rfl
    | some s => exact String.toList_append
  have hmessage : (f.message.elim "" fun s => s!" // {s}").toList =
      f.message.elim [] fun s => ' ' :: '/' :: '/' :: ' ' :: s.toList := by
    cases f.message with
    | none => rfl
    | some s => exact String.toList_append
  have hline : (findingLine f).toList =
      trimEnd ((Nat.toDigits 10 f.position.line ++ ':' :: Nat.toDigits 10 f.position.column) ++
        ':' :: remark f) ++ ['\n'] := by
    simp [findingLine, remark, Nat.toString_eq_repr, hcolon, hsnippet, hmessage]
  -- the colon after the column keeps the place from being trimmed
  rw [hline, trimEnd_append_cons (by decide)]
  simp [findingChars, placeChars]

theorem toList_fileHeading (previous : Option String) (path : String) :
    (fileHeading previous path).toList = (headingLines previous path).flatMap (· ++ ['\n']) := by
  have hfirst : (s!"File: {path}\n\n").toList = headingChars path ++ ['\n', '\n'] := by
    simp only [String.toList_append]
    rfl
  have hnext : (s!"\nFile: {path}\n\n").toList = '\n' :: (headingChars path ++ ['\n', '\n']) := by
    simp only [String.toList_append]
    rfl
  cases previous with
  | none =>
    rw [fileHeading, hfirst]
    simp [headingLines]
  | some before =>
    by_cases hsame : before = path
    · simp [fileHeading, headingLines, hsame]
    · rw [fileHeading, if_neg hsame, hnext]
      simp [headingLines, if_neg hsame]

theorem toList_findingLines (previous : Option String) (findings : List Finding) :
    (findingLines previous findings).toList =
      (blockLines previous findings).flatMap (· ++ ['\n']) := by
  induction findings generalizing previous with
  | nil => rfl
  | cons f rest ih =>
    simp [findingLines, blockLines, toList_fileHeading, toList_findingLine, ih]

/-- The texts of the finding that come from elsewhere keep to one line. -/
structure KeepsToLine (f : Finding) : Prop where
  path : '\n' ∉ f.position.path.toList
  snippet : ∀ s ∈ f.snippet, '\n' ∉ s.toList
  message : ∀ s ∈ f.message, '\n' ∉ s.toList

theorem newline_notMem_placeChars (p : Position) : '\n' ∉ placeChars p := by
  have hdigits : ∀ n, '\n' ∉ Nat.toDigits 10 n := by
    intro n hmem
    exact absurd ((isDecimal_toDigits n).digits _ hmem) (by decide)
  simp [placeChars, hdigits]

theorem KeepsToLine.newline_notMem_remark {f : Finding} (h : KeepsToLine f) : '\n' ∉ remark f := by
  have hsnippet : '\n' ∉ f.snippet.elim [] fun s => ' ' :: s.toList := by
    cases hs : f.snippet with
    | none => exact List.not_mem_nil
    | some s => simpa using h.snippet s hs
  have hmessage : '\n' ∉ f.message.elim [] fun s => ' ' :: '/' :: '/' :: ' ' :: s.toList := by
    cases hm : f.message with
    | none => exact List.not_mem_nil
    | some s => simpa using h.message s hm
  rw [remark, List.mem_append, not_or]
  exact ⟨hsnippet, hmessage⟩

theorem KeepsToLine.newline_notMem_findingChars {f : Finding} (h : KeepsToLine f) :
    '\n' ∉ findingChars f := by
  rw [findingChars, List.mem_append, not_or]
  exact ⟨newline_notMem_placeChars _, fun hmem => h.newline_notMem_remark (mem_of_mem_trimEnd hmem)⟩

/-- The lines of a block are empty, headings, and the lines of the findings. -/
theorem mem_blockLines {previous : Option String} {findings : List Finding} {text : List Char}
    (h : text ∈ blockLines previous findings) :
    text = [] ∨ ∃ f ∈ findings, text = headingChars f.position.path ∨ text = findingChars f := by
  induction findings generalizing previous with
  | nil => cases h
  | cons f rest ih =>
    have hheading : ∀ text ∈ headingLines previous f.position.path,
        text = [] ∨ text = headingChars f.position.path := by
      intro text htext
      unfold headingLines at htext
      split at htext
      · simp_all [or_comm]
      · split_ifs at htext <;> simp_all [or_comm]
    rw [blockLines, List.mem_append, List.mem_cons] at h
    rcases h with h | h | h
    · exact (hheading text h).imp_right fun heq => ⟨f, List.mem_cons_self, Or.inl heq⟩
    · exact Or.inr ⟨f, List.mem_cons_self, Or.inr h⟩
    · exact (ih h).imp_right fun ⟨g, hg, heq⟩ => ⟨g, List.mem_cons_of_mem f hg, heq⟩

/-! ## Reading the lines -/

theorem place?_findingChars (f : Finding) :
    place? (findingChars f) = some (f.position.line, f.position.column) := by
  have hchars : findingChars f = Nat.toDigits 10 f.position.line ++
      ':' :: (Nat.toDigits 10 f.position.column ++ ':' :: trimEnd (remark f)) := by
    simp [findingChars, placeChars]
  simp [place?, hchars, numberBefore?_toDigits]

/-- The line of a finding starts with a digit. -/
theorem exists_digit_findingChars (f : Finding) :
    ∃ d rest, findingChars f = d :: rest ∧ d.isDigit = true := by
  have hdecimal := isDecimal_toDigits f.position.line
  obtain ⟨d, digits, hd⟩ := List.exists_cons_of_ne_nil hdecimal.nonempty
  refine ⟨d, digits ++ ':' :: (Nat.toDigits 10 f.position.column ++ [':']) ++ trimEnd (remark f),
    ?_, hdecimal.digits d (hd ▸ List.mem_cons_self)⟩
  rw [findingChars, placeChars, hd]
  rfl

theorem path?_findingChars (f : Finding) : path? (findingChars f) = none := by
  obtain ⟨d, rest, hchars, hd⟩ := exists_digit_findingChars f
  rw [hchars]
  unfold path?
  split
  · next heq =>
    cases heq
    cases hd
  · rfl

theorem readPositions_heading (current : Option String) (path : String) (rest : List (List Char)) :
    readPositions current (headingChars path :: rest) = readPositions (some path) rest := by
  have hpath : path? (headingChars path) = some path := congrArg some String.ofList_toList
  rw [readPositions, hpath]

theorem readPositions_empty (current : Option String) (rest : List (List Char)) :
    readPositions current ([] :: rest) = readPositions current rest := rfl

theorem readPositions_finding (f : Finding) (rest : List (List Char)) :
    readPositions (some f.position.path) (findingChars f :: rest) =
      (readPositions (some f.position.path) rest).map (f.position :: ·) := by
  obtain ⟨d, cs, hchars, -⟩ := exists_digit_findingChars f
  have hne : findingChars f ≠ [] := by simp [hchars]
  rw [readPositions, path?_findingChars]
  simp only [if_neg hne, place?_findingChars]
  cases readPositions (some f.position.path) rest <;> rfl

/-- Whichever file is current, a finding is read in its own. -/
theorem readPositions_headingLines (previous : Option String) (path : String)
    (rest : List (List Char)) :
    readPositions previous (headingLines previous path ++ rest) =
      readPositions (some path) rest := by
  cases previous with
  | none => exact readPositions_heading none path _
  | some before =>
    by_cases hsame : before = path
    · simp [headingLines, hsame]
    · simp only [headingLines, if_neg hsame, List.cons_append, List.nil_append, readPositions_empty,
        readPositions_heading]

/-- **The reader finds the places of the findings, in order.** -/
theorem readPositions_blockLines (previous : Option String) (findings : List Finding) :
    readPositions previous (blockLines previous findings) = some (findings.map (·.position)) := by
  induction findings generalizing previous with
  | nil => rfl
  | cons f rest ih =>
    rw [blockLines, readPositions_headingLines, readPositions_finding, ih]
    rfl

/-! ## The block -/

/-- What starts and ends a block of code. -/
def fence : List Char := ['`', '`', '`']

theorem not_fence_of_mem_blockLines {previous : Option String} {findings : List Finding}
    {text : List Char} (h : text ∈ blockLines previous findings) : ¬ fence <+: text := by
  rcases mem_blockLines h with rfl | ⟨f, -, rfl | rfl⟩
  · decide
  · rintro ⟨rest, heq⟩
    cases heq
  · obtain ⟨d, cs, hchars, hd⟩ := exists_digit_findingChars f
    rw [hchars]
    rintro ⟨rest, heq⟩
    cases heq
    cases hd

theorem newline_notMem_of_mem_blockLines {previous : Option String} {findings : List Finding}
    (hfindings : ∀ f ∈ findings, KeepsToLine f) {text : List Char}
    (h : text ∈ blockLines previous findings) : '\n' ∉ text := by
  rcases mem_blockLines h with rfl | ⟨f, hf, rfl | rfl⟩
  · exact List.not_mem_nil
  · simpa [headingChars] using (hfindings f hf).path
  · exact (hfindings f hf).newline_notMem_findingChars

theorem lines_codeBlock {findings : List Finding} (h : ∀ f ∈ findings, KeepsToLine f) :
    lines (codeBlock findings).toList =
      (fence ++ "solidity".toList) :: (blockLines none findings ++ [fence, []]) := by
  have hchars : (codeBlock findings).toList = (fence ++ "solidity".toList) ++ '\n' ::
      ((blockLines none findings).flatMap (· ++ ['\n']) ++ (fence ++ ['\n', '\n'])) := by
    simp only [codeBlock, String.toList_append, toList_findingLines, List.append_assoc]
    rfl
  have hend : lines (fence ++ ['\n', '\n']) = [fence, []] := rfl
  rw [hchars, lines_line (by decide),
    lines_flatMap (fun text htext => newline_notMem_of_mem_blockLines h htext), hend]

/-- **Findings are read back.**  If no path, snippet or message has a newline in it, the block of
findings has a fence as its first line, then lines that do not start like a fence, then a fence and
an empty line, and reading the lines between the fences gives the places of the findings, all of
them and in order. -/
theorem codeBlock_reads_back {findings : List Finding} (h : ∀ f ∈ findings, KeepsToLine f) :
    ∃ body, lines (codeBlock findings).toList =
        (fence ++ "solidity".toList) :: (body ++ [fence, []]) ∧
      (∀ text ∈ body, ¬ fence <+: text) ∧
      readPositions none body = some (findings.map (·.position)) :=
  ⟨blockLines none findings, lines_codeBlock h, fun _ => not_fence_of_mem_blockLines,
    readPositions_blockLines none findings⟩

/-- Findings with texts that look like a fence, a heading, a place and a blank, in two files. -/
def forgedFindings : List Finding :=
  [{ detector := "d", severity := .low, position := ⟨"a.sol", 3, 1⟩, offset := 20, length := 1,
      snippet := some "```", message := some "File: b.sol" },
    { detector := "d", severity := .low, position := ⟨"a.sol", 14, 7⟩, offset := 90, length := 1,
      snippet := some "\t" },
    { detector := "d", severity := .low, position := ⟨"```", 2, 50⟩, offset := 60, length := 1,
      message := some "9:9: File: a.sol" }]

theorem codeBlock_reads_back_forged :
    (∀ f ∈ forgedFindings, KeepsToLine f) ∧
      codeBlock forgedFindings = "```solidity\nFile: a.sol\n\n3:1: ``` // File: b.sol\n14:7:\n\n" ++
        "File: ```\n\n2:50: // 9:9: File: a.sol\n```\n\n" ∧
      ∃ body, lines (codeBlock forgedFindings).toList =
          (fence ++ "solidity".toList) :: (body ++ [fence, []]) ∧
        (∀ text ∈ body, ¬ fence <+: text) ∧
        readPositions none body = some [⟨"a.sol", 3, 1⟩, ⟨"a.sol", 14, 7⟩, ⟨"```", 2, 50⟩] := by
  have hkeeps : ∀ f ∈ forgedFindings, KeepsToLine f := by
    intro f hf
    simp only [forgedFindings, List.mem_cons, List.not_mem_nil, or_false] at hf
    rcases hf with rfl | rfl | rfl <;> exact ⟨by decide, by decide, by decide⟩
  exact ⟨hkeeps, by decide +kernel, codeBlock_reads_back hkeeps⟩

end Report

end SolidityScan
