/-
# The grammar of JSON texts

Which characters spell which written value, as a grammar: a value is a literal, a number, a string,
or brackets around items or fields, and blanks may stand around every value and every key.  The
reader is another account of the same thing.  It goes through the characters once, takes what it can
at each place, and counts down its fuel.

* `NumberText.Spells`, `StringPart.Spells`, `JsonText.Spells` : the grammar;
* `JsonText.Reads` : what the reader does with a phrase of the grammar at the front of a text;
* `JsonText.read?_eq_some_iff` : the reader accepts exactly the texts of the grammar.
-/
import Mathlib.Data.List.DropRight
import SolidityScan.Json.Reader

namespace SolidityScan

/-! ## The grammar -/

namespace NumberText

/-- One decimal digit or more. -/
structure IsRun (cs : List Char) : Prop where
  nonempty : cs ≠ []
  digits : ∀ c ∈ cs, c.isDigit = true

/-- The characters spell the part of a number after the decimal point, with the point. -/
inductive SpellsFraction : Option (List Char) → List Char → Prop where
  | absent : SpellsFraction none []
  | present {ds : List Char} (hds : IsRun ds) : SpellsFraction (some ds) ('.' :: ds)

/-- The characters spell the sign of an exponent, which tells whether it is negative. -/
inductive SpellsSign : Bool → List Char → Prop where
  | absent : SpellsSign false []
  | plus : SpellsSign false ['+']
  | minus : SpellsSign true ['-']

/-- The characters spell an exponent, with the letter before it. -/
inductive SpellsExponent : Option (Bool × List Char) → List Char → Prop where
  | absent : SpellsExponent none []
  | present {e : Char} {down : Bool} {sign ds : List Char} (he : e = 'e' ∨ e = 'E')
      (hsign : SpellsSign down sign) (hds : IsRun ds) :
      SpellsExponent (some (down, ds)) (e :: (sign ++ ds))

/-- The sign before a number. -/
def minus (negative : Bool) : List Char :=
  if negative then ['-'] else []

/-- The characters spell the number: its sign, its whole part without a superfluous zero, its
fraction and its exponent. -/
inductive Spells : NumberText → List Char → Prop where
  | mk {negative : Bool} {whole : List Char} {fraction : Option (List Char)}
      {exponent : Option (Bool × List Char)} {fs es : List Char} (hwhole : IsRun whole)
      (hzero : ¬ (whole.head? = some '0' ∧ 1 < whole.length))
      (hfraction : SpellsFraction fraction fs)
      (hexponent : SpellsExponent exponent es) :
      Spells ⟨negative, whole, fraction, exponent⟩ (minus negative ++ (whole ++ (fs ++ es)))

end NumberText

namespace StringPart

open JsonText (shortEscape? unit?)

/-- The characters spell the part of a string: a character stands for itself unless it is a control
character, a quote or a backslash, and may otherwise be escaped. -/
inductive SpellsPart : StringPart → List Char → Prop where
  | plain {c : Char} (hcontrol : 0x20 ≤ c.toNat) (hquote : c ≠ '"') (hescape : c ≠ '\\') :
      SpellsPart (.char c) [c]
  | short {e c : Char} (h : shortEscape? e = some c) : SpellsPart (.char c) ['\\', e]
  | unit {a b c d : Char} {n : Nat} (h : unit? a b c d = some n) :
      SpellsPart (.unit n) ['\\', 'u', a, b, c, d]

/-- The characters spell the parts of a string, without the quotes around them. -/
inductive Spells : List StringPart → List Char → Prop where
  | nil : Spells [] []
  | cons {part : StringPart} {parts : List StringPart} {cs ds : List Char}
      (hpart : SpellsPart part cs) (hparts : Spells parts ds) : Spells (part :: parts) (cs ++ ds)

end StringPart

namespace JsonText

/-- The characters are blanks, if there are any. -/
def Blank (cs : List Char) : Prop :=
  ∀ c ∈ cs, isGap c = true

/-- The characters spell a key with the quotes and the blanks around it and the colon after it. -/
inductive SpellsKey : List StringPart → List Char → Prop where
  | mk {key : List StringPart} {before ks after : List Char} (hbefore : Blank before)
      (hkey : StringPart.Spells key ks) (hafter : Blank after) :
      SpellsKey key (before ++ '"' :: (ks ++ '"' :: (after ++ [':'])))

/-- What the grammar can spell. -/
inductive Phrase where
  /-- A value. -/
  | value (t : JsonText)
  /-- A value with blanks around it. -/
  | element (t : JsonText)
  /-- The items of an array, of which there is at least one, with commas between them. -/
  | elements (items : List JsonText)
  /-- The fields of an object, of which there is at least one, with commas between them. -/
  | members (fields : List (List StringPart × JsonText))

/-- The characters spell the phrase. -/
inductive Spells : Phrase → List Char → Prop where
  | null : Spells (.value .null) ['n', 'u', 'l', 'l']
  | true : Spells (.value (.bool true)) ['t', 'r', 'u', 'e']
  | false : Spells (.value (.bool false)) ['f', 'a', 'l', 's', 'e']
  | number {n : NumberText} {cs : List Char} (h : n.Spells cs) : Spells (.value (.number n)) cs
  | string {s : List StringPart} {cs : List Char} (h : StringPart.Spells s cs) :
      Spells (.value (.string s)) ('"' :: (cs ++ ['"']))
  | emptyArray {gap : List Char} (h : Blank gap) :
      Spells (.value (.array [])) ('[' :: (gap ++ [']']))
  | array {items : List JsonText} {cs : List Char} (h : Spells (.elements items) cs) :
      Spells (.value (.array items)) ('[' :: (cs ++ [']']))
  | emptyObject {gap : List Char} (h : Blank gap) :
      Spells (.value (.object [])) ('{' :: (gap ++ ['}']))
  | object {fields : List (List StringPart × JsonText)} {cs : List Char}
      (h : Spells (.members fields) cs) : Spells (.value (.object fields)) ('{' :: (cs ++ ['}']))
  | element {t : JsonText} {before cs after : List Char} (hbefore : Blank before)
      (h : Spells (.value t) cs) (hafter : Blank after) :
      Spells (.element t) (before ++ (cs ++ after))
  | lastItem {t : JsonText} {cs : List Char} (h : Spells (.element t) cs) :
      Spells (.elements [t]) cs
  | nextItem {t : JsonText} {items : List JsonText} {cs ds : List Char} (h : Spells (.element t) cs)
      (hitems : Spells (.elements items) ds) : Spells (.elements (t :: items)) (cs ++ ',' :: ds)
  | lastField {key : List StringPart} {t : JsonText} {ks cs : List Char} (hkey : SpellsKey key ks)
      (h : Spells (.element t) cs) : Spells (.members [(key, t)]) (ks ++ cs)
  | nextField {key : List StringPart} {t : JsonText} {fields : List (List StringPart × JsonText)}
      {ks cs ds : List Char} (hkey : SpellsKey key ks) (h : Spells (.element t) cs)
      (hfields : Spells (.members fields) ds) :
      Spells (.members ((key, t) :: fields)) (ks ++ (cs ++ ',' :: ds))

theorem blank_nil : Blank [] := nofun

/-- A value is also one with no blanks around it. -/
theorem Spells.element_of_value {t : JsonText} {cs : List Char} (h : Spells (.value t) cs) :
    Spells (.element t) cs := by
  have helement := Spells.element blank_nil h blank_nil
  rwa [List.nil_append, List.append_nil] at helement

/-! ## Reading numbers -/

open NumberText

/-- The text ends, or its next character is none of those that a digit, a fraction or an exponent
would start with. -/
structure Stops (rest : List Char) : Prop where
  digit : ∀ c ∈ rest.head?, ¬ c.isDigit = true
  point : rest.head? ≠ some '.'
  letter : ∀ c ∈ rest.head?, ¬ (c = 'e' ∨ c = 'E')

/-- Digits are read up to the first character that is none. -/
theorem digitRun?_of_isRun {ds rest : List Char} (hds : IsRun ds)
    (hrest : ∀ c ∈ rest.head?, ¬ c.isDigit = true) : digitRun? (ds ++ rest) = some (ds, rest) := by
  have htake : rest.takeWhile Char.isDigit = [] ∧ rest.dropWhile Char.isDigit = rest := by
    cases rest with
    | nil => exact ⟨rfl, rfl⟩
    | cons c rest =>
      have hc := hrest c rfl
      exact ⟨List.takeWhile_cons_of_neg hc, List.dropWhile_cons_of_neg hc⟩
  unfold digitRun?
  rw [List.takeWhile_append_of_pos hds.digits, List.dropWhile_append_of_pos hds.digits, htake.1,
    htake.2, List.append_nil]
  split
  · exact absurd rfl hds.nonempty
  · rfl

/-- What is read as digits are digits. -/
theorem isRun_of_digitRun? {cs ds rest : List Char} (h : digitRun? cs = some (ds, rest)) :
    IsRun ds ∧ cs = ds ++ rest := by
  unfold digitRun? at h
  split at h
  · cases h
  · next hne =>
    cases h
    refine ⟨⟨hne, ?_⟩, List.takeWhile_append_dropWhile.symm⟩
    intro c hc
    exact List.mem_takeWhile_imp hc

/-- A fraction is read if no digit and no point comes after it. -/
theorem fraction?_of_spells {fraction : Option (List Char)} {fs rest : List Char}
    (h : SpellsFraction fraction fs) (hdigit : ∀ c ∈ rest.head?, ¬ c.isDigit = true)
    (hpoint : rest.head? ≠ some '.') : fraction? (fs ++ rest) = some (fraction, rest) := by
  cases h with
  | absent =>
    rw [List.nil_append, fraction?]
    rintro r rfl
    exact hpoint rfl
  | present hds =>
    rw [List.cons_append, fraction?, digitRun?_of_isRun hds hdigit]
    rfl

/-- What is read as a fraction spells it. -/
theorem spells_of_fraction? {fraction : Option (List Char)} {cs rest : List Char}
    (h : fraction? cs = some (fraction, rest)) :
    ∃ fs, SpellsFraction fraction fs ∧ cs = fs ++ rest := by
  unfold fraction? at h
  split at h
  · obtain ⟨⟨ds, r⟩, hrun, heq⟩ := Option.map_eq_some_iff.1 h
    cases heq
    obtain ⟨hds, rfl⟩ := isRun_of_digitRun? hrun
    exact ⟨_, .present hds, rfl⟩
  · cases h
    exact ⟨[], .absent, rfl⟩

/-- Takes the sign of an exponent from the front of a text; it tells whether the exponent is
negative. -/
def takeSign : List Char → Bool × List Char
  | '+' :: rest => (false, rest)
  | '-' :: rest => (true, rest)
  | rest => (false, rest)

theorem exponent?_cons (c : Char) (rest : List Char) :
    exponent? (c :: rest) = if c = 'e' ∨ c = 'E' then
      (digitRun? (takeSign rest).2).map fun run => (some ((takeSign rest).1, run.1), run.2)
    else some (none, c :: rest) := rfl

/-- The sign of an exponent is taken from its digits. -/
theorem takeSign_of_spells {down : Bool} {sign ds rest : List Char} (h : SpellsSign down sign)
    (hds : IsRun ds) : takeSign (sign ++ (ds ++ rest)) = (down, ds ++ rest) := by
  cases h with
  | plus | minus => rfl
  | absent =>
    obtain ⟨d, ds, rfl⟩ := List.exists_cons_of_ne_nil hds.nonempty
    have hd := hds.digits d List.mem_cons_self
    rw [List.nil_append, List.cons_append, takeSign]
    · rintro r ⟨⟩
      cases hd
    · rintro r ⟨⟩
      cases hd

theorem spells_takeSign (cs : List Char) :
    ∃ sign, SpellsSign (takeSign cs).1 sign ∧ cs = sign ++ (takeSign cs).2 := by
  unfold takeSign
  split
  · exact ⟨_, .plus, rfl⟩
  · exact ⟨_, .minus, rfl⟩
  · exact ⟨_, .absent, rfl⟩

/-- An exponent is read if what follows stops a number. -/
theorem exponent?_of_spells {exponent : Option (Bool × List Char)} {es rest : List Char}
    (h : SpellsExponent exponent es) (hrest : Stops rest) :
    exponent? (es ++ rest) = some (exponent, rest) := by
  cases h with
  | absent =>
    cases rest with
    | nil => rfl
    | cons c rest => exact if_neg (hrest.letter c rfl)
  | present he hsign hds =>
    rw [List.cons_append, exponent?_cons, if_pos he, List.append_assoc,
      takeSign_of_spells hsign hds, digitRun?_of_isRun hds hrest.digit]
    rfl

/-- What is read as an exponent spells it. -/
theorem spells_of_exponent? {exponent : Option (Bool × List Char)} {cs rest : List Char}
    (h : exponent? cs = some (exponent, rest)) :
    ∃ es, SpellsExponent exponent es ∧ cs = es ++ rest := by
  cases cs with
  | nil =>
    cases h
    exact ⟨[], .absent, rfl⟩
  | cons c cs =>
    rw [exponent?_cons] at h
    split_ifs at h with he
    · obtain ⟨⟨ds, r⟩, hrun, heq⟩ := Option.map_eq_some_iff.1 h
      cases heq
      obtain ⟨hds, hrest⟩ := isRun_of_digitRun? hrun
      obtain ⟨sign, hsign, hcs⟩ := spells_takeSign cs
      refine ⟨_, .present he hsign hds, ?_⟩
      rw [List.cons_append, List.append_assoc, ← hrest, ← hcs]
    · cases h
      exact ⟨[], .absent, rfl⟩

/-- Takes the sign of a number from the front of a text. -/
def takeMinus : List Char → Bool × List Char
  | '-' :: rest => (true, rest)
  | rest => (false, rest)

/-- Reads what follows the sign of a number. -/
def magnitude? (negative : Bool) (cs : List Char) : Option (NumberText × List Char) := do
  let (whole, rest) ← digitRun? cs
  if whole.head? = some '0' ∧ 1 < whole.length then
    none
  let (fraction, rest) ← fraction? rest
  let (exponent, rest) ← exponent? rest
  return ({ negative, whole, fraction, exponent }, rest)

theorem number?_eq (cs : List Char) :
    number? cs = magnitude? (takeMinus cs).1 (takeMinus cs).2 := rfl

/-- A minus is taken from the digits after it. -/
theorem takeMinus_minus {whole : List Char} (negative : Bool) (hwhole : IsRun whole)
    (rest : List Char) :
    takeMinus (minus negative ++ (whole ++ rest)) = (negative, whole ++ rest) := by
  cases negative with
  | true => rfl
  | false =>
    obtain ⟨d, ds, rfl⟩ := List.exists_cons_of_ne_nil hwhole.nonempty
    have hd := hwhole.digits d List.mem_cons_self
    rw [minus, if_neg Bool.false_ne_true, List.nil_append, List.cons_append, takeMinus]
    rintro r ⟨⟩
    cases hd

theorem minus_takeMinus (cs : List Char) : cs = minus (takeMinus cs).1 ++ (takeMinus cs).2 := by
  unfold takeMinus
  split <;> rfl

/-- What follows the whole part of a number does not extend it, and what follows the fraction does
not extend that. -/
theorem not_extends {fraction : Option (List Char)} {exponent : Option (Bool × List Char)}
    {fs es rest : List Char} (hfraction : SpellsFraction fraction fs)
    (hexponent : SpellsExponent exponent es) (hrest : Stops rest) :
    (∀ c ∈ (fs ++ (es ++ rest)).head?, ¬ c.isDigit = true) ∧
      (∀ c ∈ (es ++ rest).head?, ¬ c.isDigit = true) ∧ (es ++ rest).head? ≠ some '.' := by
  have hes : (∀ c ∈ (es ++ rest).head?, ¬ c.isDigit = true) ∧ (es ++ rest).head? ≠ some '.' := by
    cases hexponent with
    | absent => exact ⟨hrest.digit, hrest.point⟩
    | present he _ _ => rcases he with rfl | rfl <;> simp
  refine ⟨?_, hes⟩
  cases hfraction with
  | absent => exact hes.1
  | present _ => simp

/-- **A number is read** if what follows stops it. -/
theorem number?_of_spells {n : NumberText} {cs rest : List Char} (h : n.Spells cs)
    (hrest : Stops rest) : number? (cs ++ rest) = some (n, rest) := by
  obtain @⟨negative, whole, fraction, exponent, fs, es, hwhole, hzero, hfraction, hexponent⟩ := h
  obtain ⟨hwholeEnd, hdigit, hpoint⟩ := not_extends hfraction hexponent hrest
  rw [number?_eq, List.append_assoc, List.append_assoc, List.append_assoc, takeMinus_minus _ hwhole,
    magnitude?, digitRun?_of_isRun hwhole hwholeEnd]
  simp only [Option.bind_eq_bind, Option.bind_some, if_neg hzero, Option.pure_def,
    fraction?_of_spells hfraction hdigit hpoint, exponent?_of_spells hexponent hrest]

/-- What is read as a number spells it. -/
theorem spells_of_number? {n : NumberText} {cs rest : List Char} (h : number? cs = some (n, rest)) :
    ∃ ns, n.Spells ns ∧ cs = ns ++ rest := by
  rw [number?_eq, magnitude?] at h
  obtain ⟨⟨whole, r⟩, hrun, h⟩ := Option.bind_eq_some_iff.1 h
  by_cases hzero : whole.head? = some '0' ∧ 1 < whole.length
  · simp [hzero] at h
  · simp only [if_neg hzero, Option.bind_eq_bind, Option.pure_def] at h
    obtain ⟨⟨fraction, r'⟩, hfraction, h⟩ := Option.bind_eq_some_iff.1 h
    obtain ⟨⟨exponent, r''⟩, hexponent, h⟩ := Option.bind_eq_some_iff.1 h
    cases h
    obtain ⟨hwhole, hcs⟩ := isRun_of_digitRun? hrun
    obtain ⟨fs, hfs, rfl⟩ := spells_of_fraction? hfraction
    obtain ⟨es, hes, rfl⟩ := spells_of_exponent? hexponent
    refine ⟨_, .mk hwhole hzero hfs hes, ?_⟩
    rw [List.append_assoc, List.append_assoc, List.append_assoc, ← hcs, ← minus_takeMinus]

/-! ## Reading strings -/

/-- A string is read up to the quote that ends it. -/
theorem stringParts?_of_spells {parts : List StringPart} {cs : List Char}
    (h : StringPart.Spells parts cs) (rest : List Char) :
    stringParts? (cs ++ '"' :: rest) = some (parts, rest) := by
  induction h with
  | nil => rfl
  | cons hpart _ ih =>
    rw [List.append_assoc]
    cases hpart with
    | @plain c hcontrol hquote hescape =>
      have hplain : ¬ (c.toNat < 0x20 ∨ c = '\\') := not_or.2 ⟨Nat.not_lt.2 hcontrol, hescape⟩
      rw [List.singleton_append, stringParts?, if_neg hplain, ih]
      · rfl
      · exact hquote
      · rintro a b c d r rfl
        exact absurd rfl hescape
      · rintro e r rfl
        exact absurd rfl hescape
    | short he =>
      rw [List.cons_append, List.cons_append, List.nil_append, stringParts?, he, ih]
      · rfl
      · rintro a b c d r rfl
        cases he
    | unit hn =>
      rw [List.cons_append, List.cons_append, List.cons_append, List.cons_append, List.cons_append,
        List.cons_append, List.nil_append, stringParts?, hn, ih]
      rfl

/-- What is read as the parts of a string spells them. -/
theorem spells_of_stringParts? {parts : List StringPart} {cs rest : List Char}
    (h : stringParts? cs = some (parts, rest)) :
    ∃ ks, StringPart.Spells parts ks ∧ cs = ks ++ '"' :: rest := by
  fun_induction stringParts? cs generalizing parts with
  | case1 => cases h
  | case2 r =>
    cases h
    exact ⟨[], .nil, rfl⟩
  | case3 a b c d r ih =>
    obtain ⟨n, hn, h⟩ := Option.bind_eq_some_iff.1 h
    obtain ⟨⟨more, r'⟩, hmore, h⟩ := Option.bind_eq_some_iff.1 h
    cases h
    obtain ⟨ks, hks, rfl⟩ := ih hmore
    exact ⟨_, .cons (.unit hn) hks, rfl⟩
  | case4 e r _ ih =>
    obtain ⟨c, hc, h⟩ := Option.bind_eq_some_iff.1 h
    obtain ⟨⟨more, r'⟩, hmore, h⟩ := Option.bind_eq_some_iff.1 h
    cases h
    obtain ⟨ks, hks, rfl⟩ := ih hmore
    exact ⟨_, .cons (.short hc) hks, rfl⟩
  | case5 => cases h
  | case6 c r hquote _ _ hplain ih =>
    obtain ⟨⟨more, r'⟩, hmore, h⟩ := Option.bind_eq_some_iff.1 h
    cases h
    obtain ⟨ks, hks, rfl⟩ := ih hmore
    obtain ⟨hcontrol, hescape⟩ := not_or.1 hplain
    exact ⟨_, .cons (.plain (Nat.not_lt.1 hcontrol) hquote hescape) hks, rfl⟩

/-! ## Reading blanks -/

/-- What is skipped is blank. -/
theorem exists_blank (cs : List Char) : ∃ gap, Blank gap ∧ cs = gap ++ skipGap cs :=
  ⟨cs.takeWhile isGap, fun _ hc => List.mem_takeWhile_imp hc, List.takeWhile_append_dropWhile.symm⟩

theorem skipGap_append {gap : List Char} (h : Blank gap) (cs : List Char) :
    skipGap (gap ++ cs) = skipGap cs :=
  List.dropWhile_append_of_pos h

theorem skipGap_skipGap (cs : List Char) : skipGap (skipGap cs) = skipGap cs :=
  List.dropWhile_idempotent isGap cs

theorem skipGap_cons {c : Char} (h : ¬ isGap c = true) (cs : List Char) :
    skipGap (c :: cs) = c :: cs :=
  List.dropWhile_cons_of_neg h

/-- A value may stand behind blanks. -/
theorem value_skipGap (fuel : Nat) (cs : List Char) : value fuel (skipGap cs) = value fuel cs := by
  cases fuel with
  | zero => rfl
  | succ fuel => rw [value, value, skipGap_skipGap]

theorem elements_skipGap (fuel : Nat) (cs : List Char) :
    elements fuel (skipGap cs) = elements fuel cs := by
  cases fuel with
  | zero => rfl
  | succ fuel => rw [elements, elements, value_skipGap]

theorem members_skipGap (fuel : Nat) (cs : List Char) :
    members fuel (skipGap cs) = members fuel cs := by
  cases fuel with
  | zero => rfl
  | succ fuel => rw [members, members, skipGap_skipGap]

theorem value_blank {gap : List Char} (h : Blank gap) (fuel : Nat) (cs : List Char) :
    value fuel (gap ++ cs) = value fuel cs := by
  rw [← value_skipGap, skipGap_append h, value_skipGap]

theorem stops_nil : Stops [] := by
  constructor <;> simp

/-- A number ends before a blank, a comma and a closing bracket. -/
theorem stops_cons {c : Char} (h : isGap c = true ∨ c = ',' ∨ c = ']' ∨ c = '}')
    (rest : List Char) :
    Stops (c :: rest) := by
  simp only [isGap, Bool.or_eq_true, beq_iff_eq] at h
  constructor <;> rcases h with (((rfl | rfl) | rfl) | rfl) | rfl | rfl | rfl <;> simp

/-- Blanks before what stops a number stop it as well. -/
theorem Stops.blank_append {gap rest : List Char} (h : Stops rest) (hgap : Blank gap) :
    Stops (gap ++ rest) := by
  cases gap with
  | nil => exact h
  | cons c gap => exact stops_cons (Or.inl (hgap c List.mem_cons_self)) (gap ++ rest)

/-! ## Reading values -/

theorem value_bracket (fuel : Nat) (cs : List Char) :
    value (fuel + 1) ('[' :: cs) = match skipGap cs with
      | ']' :: rest => some (.array [], rest)
      | rest => (elements fuel rest).map fun read => (.array read.1, read.2) := rfl

theorem value_brace (fuel : Nat) (cs : List Char) :
    value (fuel + 1) ('{' :: cs) = match skipGap cs with
      | '}' :: rest => some (.object [], rest)
      | rest => (members fuel rest).map fun read => (.object read.1, read.2) := rfl

/-- A number starts with a minus or with a digit, so it is not taken for another value. -/
theorem exists_head_of_spells {n : NumberText} {cs : List Char} (h : n.Spells cs) :
    ∃ c ds, cs = c :: ds ∧ (c = '-' ∨ c.isDigit = true) := by
  obtain @⟨negative, whole, _, _, fs, es, hwhole, -, -, -⟩ := h
  obtain ⟨d, ds, rfl⟩ := List.exists_cons_of_ne_nil hwhole.nonempty
  cases negative with
  | true => exact ⟨_, _, rfl, Or.inl rfl⟩
  | false => exact ⟨_, _, rfl, Or.inr (hwhole.digits d List.mem_cons_self)⟩

/-- A number is read as a value, if what follows stops it. -/
theorem value_number {n : NumberText} {cs rest : List Char} (h : n.Spells cs) (hrest : Stops rest)
    (fuel : Nat) : value (fuel + 1) (cs ++ rest) = some (.number n, rest) := by
  have hread := number?_of_spells h hrest
  obtain ⟨c, ds, rfl, hc⟩ := exists_head_of_spells h
  have hgap : ¬ isGap c = true := by
    simp only [isGap, Bool.or_eq_true, beq_iff_eq]
    rintro (((rfl | rfl) | rfl) | rfl) <;> simp at hc
  rw [List.cons_append] at hread ⊢
  rw [value, skipGap_cons hgap]
  -- a digit or a minus sign starts nothing but a number
  split
  case h_7 => rw [hread]; rfl
  all_goals
    next heq =>
      cases heq
      simp at hc

theorem value_string {s : List StringPart} {cs : List Char} (h : StringPart.Spells s cs)
    (fuel : Nat) (rest : List Char) :
    value (fuel + 1) ('"' :: (cs ++ '"' :: rest)) = some (.string s, rest) := by
  change (stringParts? _).map _ = _
  rw [stringParts?_of_spells h]
  rfl

/-- No item starts with a closing bracket. -/
theorem elements_closing (fuel : Nat) (rest : List Char) : elements fuel (']' :: rest) = none := by
  rcases fuel with _ | _ | fuel <;> rfl

/-- No field starts with a closing brace. -/
theorem members_closing (fuel : Nat) (rest : List Char) : members fuel ('}' :: rest) = none := by
  rcases fuel with _ | fuel <;> rfl

/-- Elements between brackets are read as an array. -/
theorem value_array {fuel : Nat} {items : List JsonText} {cs rest : List Char}
    (h : elements fuel cs = some (items, rest)) :
    value (fuel + 1) ('[' :: cs) = some (.array items, rest) := by
  rw [← elements_skipGap] at h
  rw [value_bracket]
  split
  · next hclosing =>
    rw [hclosing, elements_closing] at h
    cases h
  · rw [h]
    rfl

/-- Members between braces are read as an object. -/
theorem value_object {fuel : Nat} {fields : List (List StringPart × JsonText)} {cs rest : List Char}
    (h : members fuel cs = some (fields, rest)) :
    value (fuel + 1) ('{' :: cs) = some (.object fields, rest) := by
  rw [← members_skipGap] at h
  rw [value_brace]
  split
  · next hclosing =>
    rw [hclosing, members_closing] at h
    cases h
  · rw [h]
    rfl

/-- The bracket after a value ends the elements. -/
theorem elements_last {fuel : Nat} {t : JsonText} {cs after rest : List Char}
    (h : value fuel cs = some (t, after ++ ']' :: rest)) (hafter : Blank after) :
    elements (fuel + 1) cs = some ([t], rest) := by
  rw [elements, h]
  simp only [Option.bind_eq_bind, Option.bind_some, skipGap_append hafter]
  rfl

/-- A comma after a value leads to more elements. -/
theorem elements_next {fuel : Nat} {t : JsonText} {items : List JsonText}
    {cs after ds rest : List Char} (h : value fuel cs = some (t, after ++ ',' :: ds))
    (hafter : Blank after) (hitems : elements fuel ds = some (items, rest)) :
    elements (fuel + 1) cs = some (t :: items, rest) := by
  rw [elements, h]
  simp only [Option.bind_eq_bind, Option.bind_some, skipGap_append hafter]
  change (elements fuel ds).bind _ = _
  rw [hitems]
  rfl

/-- Reads the fields of an object after the first key and its colon. -/
def membersAfter (fuel : Nat) (key : List StringPart) (cs : List Char) :
    Option (List (List StringPart × JsonText) × List Char) := do
  let (item, rest) ← value fuel cs
  match skipGap rest with
  | ',' :: rest => do
    let (fields, rest) ← members fuel rest
    return ((key, item) :: fields, rest)
  | '}' :: rest => return ([(key, item)], rest)
  | _ => none

theorem members_key {key : List StringPart} {ks : List Char} (h : SpellsKey key ks) (fuel : Nat)
    (cs : List Char) : members (fuel + 1) (ks ++ cs) = membersAfter fuel key cs := by
  obtain ⟨hbefore, hkey, hafter⟩ := h
  rw [members, List.append_assoc, skipGap_append hbefore]
  simp only [List.cons_append, List.append_assoc]
  change (stringParts? _).bind _ = _
  rw [stringParts?_of_spells hkey]
  simp only [Option.bind_some, skipGap_append hafter]
  rfl

/-- The brace after a value ends the members. -/
theorem members_last {fuel : Nat} {key : List StringPart} {t : JsonText}
    {ks cs after rest : List Char}
    (hkey : SpellsKey key ks) (h : value fuel cs = some (t, after ++ '}' :: rest))
    (hafter : Blank after) : members (fuel + 1) (ks ++ cs) = some ([(key, t)], rest) := by
  rw [members_key hkey, membersAfter, h]
  simp only [Option.bind_eq_bind, Option.bind_some, skipGap_append hafter]
  rfl

/-- A comma after a value leads to more members. -/
theorem members_next {fuel : Nat} {key : List StringPart} {t : JsonText}
    {fields : List (List StringPart × JsonText)} {ks cs after ds rest : List Char}
    (hkey : SpellsKey key ks) (h : value fuel cs = some (t, after ++ ',' :: ds))
    (hafter : Blank after) (hfields : members fuel ds = some (fields, rest)) :
    members (fuel + 1) (ks ++ cs) = some ((key, t) :: fields, rest) := by
  rw [members_key hkey, membersAfter, h]
  simp only [Option.bind_eq_bind, Option.bind_some, skipGap_append hafter]
  change (members fuel ds).bind _ = _
  rw [hfields]
  rfl

/-- The reader takes the phrase from the front of a text and leaves the rest, if its fuel is twice
the length of the phrase, or one more for a list of items or fields. -/
def Reads (cs : List Char) : Phrase → Prop
  | .value t => ∀ fuel rest, 2 * cs.length ≤ fuel → Stops rest →
      value fuel (cs ++ rest) = some (t, rest)
  | .element t => ∀ fuel rest, 2 * cs.length ≤ fuel → Stops rest →
      ∃ after, Blank after ∧ value fuel (cs ++ rest) = some (t, after ++ rest)
  | .elements items => ∀ fuel rest, 2 * cs.length < fuel →
      elements fuel (cs ++ ']' :: rest) = some (items, rest)
  | .members fields => ∀ fuel rest, 2 * cs.length < fuel →
      members fuel (cs ++ '}' :: rest) = some (fields, rest)

/-- Fuel for a text that is not empty is not zero. -/
theorem exists_fuel {cs : List Char} {fuel : Nat} (hcs : cs ≠ []) (h : 2 * cs.length ≤ fuel) :
    ∃ n, fuel = n + 1 ∧ 2 * cs.length ≤ n + 1 := by
  have hpos := List.length_pos_iff.2 hcs
  exact ⟨fuel - 1, by omega, by omega⟩

/-- **What is spelled is read**, given fuel for two steps at each character. -/
theorem reads_of_spells {p : Phrase} {cs : List Char} (h : Spells p cs) : Reads cs p := by
  induction h with
  | null | true | false =>
    intro fuel rest hfuel _
    obtain ⟨fuel, rfl, -⟩ := exists_fuel (by simp) hfuel
    rfl
  | number hn =>
    intro fuel rest hfuel hrest
    obtain ⟨c, ds, rfl, -⟩ := exists_head_of_spells hn
    obtain ⟨fuel, rfl, -⟩ := exists_fuel (by simp) hfuel
    exact value_number hn hrest fuel
  | string hs =>
    intro fuel rest hfuel _
    obtain ⟨fuel, rfl, -⟩ := exists_fuel (by simp) hfuel
    rw [List.cons_append, List.append_assoc, List.singleton_append]
    exact value_string hs fuel rest
  | emptyArray hgap =>
    intro fuel rest hfuel _
    obtain ⟨fuel, rfl, -⟩ := exists_fuel (by simp) hfuel
    rw [List.cons_append, List.append_assoc, value_bracket, skipGap_append hgap]
    rfl
  | emptyObject hgap =>
    intro fuel rest hfuel _
    obtain ⟨fuel, rfl, -⟩ := exists_fuel (by simp) hfuel
    rw [List.cons_append, List.append_assoc, value_brace, skipGap_append hgap]
    rfl
  | array _ ih =>
    intro fuel rest hfuel _
    obtain ⟨fuel, rfl, hfuel⟩ := exists_fuel (by simp) hfuel
    rw [List.length_cons, List.length_append, List.length_singleton] at hfuel
    rw [List.cons_append, List.append_assoc, List.singleton_append]
    exact value_array (ih fuel rest (by omega))
  | object _ ih =>
    intro fuel rest hfuel _
    obtain ⟨fuel, rfl, hfuel⟩ := exists_fuel (by simp) hfuel
    rw [List.length_cons, List.length_append, List.length_singleton] at hfuel
    rw [List.cons_append, List.append_assoc, List.singleton_append]
    exact value_object (ih fuel rest (by omega))
  | @element t before cs after hbefore _ hafter ih =>
    intro fuel rest hfuel hrest
    rw [List.length_append, List.length_append] at hfuel
    refine ⟨after, hafter, ?_⟩
    rw [List.append_assoc, List.append_assoc, value_blank hbefore]
    exact ih fuel (after ++ rest) (by omega) (hrest.blank_append hafter)
  | lastItem _ ih =>
    intro fuel rest hfuel
    obtain ⟨fuel, rfl⟩ := Nat.exists_eq_add_one_of_ne_zero (Nat.ne_zero_of_lt hfuel)
    obtain ⟨after, hafter, hread⟩ := ih fuel (']' :: rest) (by omega) (stops_cons (by simp) rest)
    exact elements_last hread hafter
  | @nextItem t items cs ds _ _ ih ihitems =>
    intro fuel rest hfuel
    obtain ⟨fuel, rfl⟩ := Nat.exists_eq_add_one_of_ne_zero (Nat.ne_zero_of_lt hfuel)
    rw [List.length_append, List.length_cons] at hfuel
    rw [List.append_assoc, List.cons_append]
    obtain ⟨after, hafter, hread⟩ :=
      ih fuel (',' :: (ds ++ ']' :: rest)) (by omega) (stops_cons (by simp) _)
    exact elements_next hread hafter (ihitems fuel rest (by omega))
  | @lastField key t ks cs hkey _ ih =>
    intro fuel rest hfuel
    obtain ⟨fuel, rfl⟩ := Nat.exists_eq_add_one_of_ne_zero (Nat.ne_zero_of_lt hfuel)
    rw [List.length_append] at hfuel
    obtain ⟨after, hafter, hread⟩ := ih fuel ('}' :: rest) (by omega) (stops_cons (by simp) rest)
    rw [List.append_assoc]
    exact members_last hkey hread hafter
  | @nextField key t fields ks cs ds hkey _ _ ih ihfields =>
    intro fuel rest hfuel
    obtain ⟨fuel, rfl⟩ := Nat.exists_eq_add_one_of_ne_zero (Nat.ne_zero_of_lt hfuel)
    rw [List.length_append, List.length_append, List.length_cons] at hfuel
    rw [List.append_assoc, List.append_assoc, List.cons_append]
    obtain ⟨after, hafter, hread⟩ :=
      ih fuel (',' :: (ds ++ '}' :: rest)) (by omega) (stops_cons (by simp) _)
    exact members_next hkey hread hafter (ihfields fuel rest (by omega))

/-! ## What is read is spelled -/

theorem after?_eq_some {word cs rest : List Char} (h : after? word cs = some rest) :
    cs = word ++ rest := by
  fun_induction after? word cs with
  | case1 cs =>
    cases h
    rfl
  | case2 w word cs ih => rw [List.cons_append, ← ih h]
  | case3 | case4 => cases h

theorem literal_eq_some {word cs rest : List Char} {t u : JsonText}
    (h : (after? word cs).map (t, ·) = some (u, rest)) : u = t ∧ cs = word ++ rest := by
  obtain ⟨r, hread, heq⟩ := Option.map_eq_some_iff.1 h
  cases heq
  exact ⟨rfl, after?_eq_some hread⟩

/-- Where the reader accepts, it has taken a phrase from the front of the text. -/
structure Sound (fuel : Nat) : Prop where
  value : ∀ {cs t rest}, value fuel cs = some (t, rest) →
    ∃ before ds, Blank before ∧ Spells (.value t) ds ∧ cs = before ++ (ds ++ rest)
  elements : ∀ {cs items rest}, elements fuel cs = some (items, rest) →
    ∃ ds, Spells (.elements items) ds ∧ cs = ds ++ ']' :: rest
  members : ∀ {cs fields rest}, members fuel cs = some (fields, rest) →
    ∃ ds, Spells (.members fields) ds ∧ cs = ds ++ '}' :: rest

namespace Sound

variable {fuel : Nat}

theorem value_succ (ih : Sound fuel) {cs : List Char} {t : JsonText} {rest : List Char}
    (h : JsonText.value (fuel + 1) cs = some (t, rest)) :
    ∃ before ds, Blank before ∧ Spells (.value t) ds ∧ cs = before ++ (ds ++ rest) := by
  obtain ⟨before, hbefore, hcs⟩ := exists_blank cs
  suffices hspells : ∃ ds, Spells (.value t) ds ∧ skipGap cs = ds ++ rest by
    obtain ⟨ds, hds, hskip⟩ := hspells
    exact ⟨before, ds, hbefore, hds, hskip ▸ hcs⟩
  rw [JsonText.value] at h
  generalize skipGap cs = start at h ⊢
  split at h
  · next inside =>
    obtain ⟨gap, hgap, hinside⟩ := exists_blank inside
    split at h
    · next hclosing =>
      cases h
      refine ⟨_, .emptyObject hgap, ?_⟩
      rw [hinside, hclosing, List.cons_append, List.append_assoc]
      rfl
    · obtain ⟨⟨fields, r⟩, hread, heq⟩ := Option.map_eq_some_iff.1 h
      cases heq
      rw [members_skipGap] at hread
      obtain ⟨ds, hds, rfl⟩ := ih.members hread
      exact ⟨_, .object hds, by rw [List.cons_append, List.append_assoc]; rfl⟩
  · next inside =>
    obtain ⟨gap, hgap, hinside⟩ := exists_blank inside
    split at h
    · next hclosing =>
      cases h
      refine ⟨_, .emptyArray hgap, ?_⟩
      rw [hinside, hclosing, List.cons_append, List.append_assoc]
      rfl
    · obtain ⟨⟨items, r⟩, hread, heq⟩ := Option.map_eq_some_iff.1 h
      cases heq
      rw [elements_skipGap] at hread
      obtain ⟨ds, hds, rfl⟩ := ih.elements hread
      exact ⟨_, .array hds, by rw [List.cons_append, List.append_assoc]; rfl⟩
  · obtain ⟨⟨s, r⟩, hread, heq⟩ := Option.map_eq_some_iff.1 h
    cases heq
    obtain ⟨ks, hks, rfl⟩ := spells_of_stringParts? hread
    exact ⟨_, .string hks, by rw [List.cons_append, List.append_assoc]; rfl⟩
  · obtain ⟨rfl, rfl⟩ := literal_eq_some h
    exact ⟨_, .null, rfl⟩
  · obtain ⟨rfl, rfl⟩ := literal_eq_some h
    exact ⟨_, .true, rfl⟩
  · obtain ⟨rfl, rfl⟩ := literal_eq_some h
    exact ⟨_, .false, rfl⟩
  · obtain ⟨⟨n, r⟩, hread, heq⟩ := Option.map_eq_some_iff.1 h
    cases heq
    obtain ⟨ns, hns, hstart⟩ := spells_of_number? hread
    exact ⟨ns, .number hns, hstart⟩

/-- A value that was read, with the blanks before the next character, is an element. -/
theorem element (ih : Sound fuel) {cs : List Char} {t : JsonText} {r : List Char}
    (h : JsonText.value fuel cs = some (t, r)) :
    ∃ ds, Spells (.element t) ds ∧ cs = ds ++ skipGap r := by
  obtain ⟨before, ds, hbefore, hds, hcs⟩ := ih.value h
  obtain ⟨after, hafter, hr⟩ := exists_blank r
  refine ⟨_, .element hbefore hds hafter, ?_⟩
  rw [List.append_assoc, List.append_assoc, ← hr, hcs]

theorem elements_succ (ih : Sound fuel) {cs : List Char} {items : List JsonText} {rest : List Char}
    (h : JsonText.elements (fuel + 1) cs = some (items, rest)) :
    ∃ ds, Spells (.elements items) ds ∧ cs = ds ++ ']' :: rest := by
  rw [JsonText.elements] at h
  obtain ⟨⟨t, r⟩, hvalue, h⟩ := Option.bind_eq_some_iff.1 h
  obtain ⟨ds, hds, hcs⟩ := ih.element hvalue
  dsimp only at h
  split at h
  · next hcomma =>
    obtain ⟨⟨more, r'⟩, hmore, heq⟩ := Option.bind_eq_some_iff.1 h
    cases heq
    obtain ⟨es, hes, rfl⟩ := ih.elements hmore
    refine ⟨_, .nextItem hds hes, ?_⟩
    rw [hcs, hcomma, List.append_assoc, List.cons_append]
  · next hclosing =>
    cases h
    exact ⟨ds, .lastItem hds, hclosing ▸ hcs⟩
  · cases h

theorem members_succ (ih : Sound fuel) {cs : List Char}
    {fields : List (List StringPart × JsonText)} {rest : List Char}
    (h : JsonText.members (fuel + 1) cs = some (fields, rest)) :
    ∃ ds, Spells (.members fields) ds ∧ cs = ds ++ '}' :: rest := by
  obtain ⟨before, hbefore, hcs⟩ := exists_blank cs
  rw [JsonText.members] at h
  split at h
  · next inside hquote =>
    obtain ⟨⟨key, r⟩, hparts, h⟩ := Option.bind_eq_some_iff.1 h
    obtain ⟨ks, hks, hinside⟩ := spells_of_stringParts? hparts
    obtain ⟨gap, hgap, hr⟩ := exists_blank r
    dsimp only at h
    split at h
    · next after hcolon =>
      have hname : ∃ name, SpellsKey key name ∧ cs = name ++ after := by
        refine ⟨_, .mk hbefore hks hgap, ?_⟩
        rw [hcs, hquote, hinside, hr, hcolon]
        simp
      obtain ⟨name, hkey, hcs⟩ := hname
      obtain ⟨⟨t, r'⟩, hvalue, h⟩ := Option.bind_eq_some_iff.1 h
      obtain ⟨ds, hds, hafter⟩ := ih.element hvalue
      dsimp only at h
      split at h
      · next hcomma =>
        obtain ⟨⟨more, r''⟩, hmore, heq⟩ := Option.bind_eq_some_iff.1 h
        cases heq
        obtain ⟨es, hes, rfl⟩ := ih.members hmore
        refine ⟨_, .nextField hkey hds hes, ?_⟩
        rw [hcs, hafter, hcomma, List.append_assoc, List.append_assoc, List.cons_append]
      · next hclosing =>
        cases h
        refine ⟨_, .lastField hkey hds, ?_⟩
        rw [hcs, hafter, hclosing, List.append_assoc]
      · cases h
    · cases h
  · cases h

end Sound

/-- Whatever the fuel, only what is spelled is read. -/
theorem sound (fuel : Nat) : Sound fuel := by
  induction fuel with
  | zero => exact ⟨nofun, nofun, nofun⟩
  | succ fuel ih => exact ⟨ih.value_succ, ih.elements_succ, ih.members_succ⟩

/-- **The reader accepts exactly the texts of the grammar.** -/
theorem read?_eq_some_iff {text : String} {t : JsonText} :
    read? text = some t ↔ Spells (.element t) text.toList := by
  unfold read?
  dsimp only
  constructor
  · intro h
    split at h
    · next v rest hvalue =>
      split_ifs at h with hend
      cases h
      obtain ⟨ds, hds, hcs⟩ := (sound _).element hvalue
      rw [List.isEmpty_iff.1 hend, List.append_nil] at hcs
      exact hcs ▸ hds
    · cases h
  · intro h
    have hread := reads_of_spells h
    obtain ⟨after, hafter, hvalue⟩ := hread (2 * text.toList.length + 2) [] (by omega) stops_nil
    rw [List.append_nil, List.append_nil] at hvalue
    have hend : (skipGap after).isEmpty = true := by
      rw [← List.append_nil after, skipGap_append hafter]
      rfl
    simp only [hvalue, hend, if_true]

end JsonText

end SolidityScan
