/-
# JSON texts

A JSON text as it is written: numbers by their digits, strings by their characters and escapes,
objects by their fields in order of appearance.  What a written value denotes is a second question:
a number may be too large, an escape may be half of a surrogate pair, and of repeated keys the last
one counts.
-/
import SolidityScan.Json.Basic
import SolidityScan.Text.Numeral

namespace SolidityScan

open Text

/-- A number as it is written. -/
structure NumberText where
  negative : Bool
  whole : List Char
  /-- The digits after the point, if there is one. -/
  fraction : Option (List Char)
  /-- The sign and the digits of the exponent, if there is one. -/
  exponent : Option (Bool × List Char)
deriving DecidableEq, Repr

/-- A piece of a string as it is written: a character, or a 16-bit unit in hexadecimal. -/
inductive StringPart where
  | char (c : Char)
  | unit (n : Nat)
deriving DecidableEq, Repr

/-- A value as it is written. -/
inductive JsonText where
  | null
  | bool (b : Bool)
  | number (n : NumberText)
  | string (s : List StringPart)
  | array (items : List JsonText)
  | object (fields : List (List StringPart × JsonText))
deriving Repr

/-! ## What numbers denote -/

namespace NumberText

/-- Extends `n` by the digits that fit into 64 bits, and returns the digits that do not. -/
def absorb (n : Nat) : List Char → Nat × List Char
  | [] => (n, [])
  | c :: rest =>
    let next := 10 * n + digitValue c
    if next < Json.wordSize then absorb next rest else (n, c :: rest)

/-- The number of values that 32 bits with a sign have from zero on. -/
def exponentLimit : Nat := Nat.pow 2 31

/-- The double that a number with a point or an exponent, or one too long for 64 bits, denotes:
the leading digits that fit 64 bits, scaled by the power of ten that the others leave. -/
def double? (n : NumberText) : Option Double := do
  let (significand, surplus) := absorb 0 n.whole
  let fraction := n.fraction.getD []
  let (significand, ignored) := absorb significand fraction
  let power : Int := (surplus.length + ignored.length : Nat) - (fraction.length : Int)
  let magnitude ← match n.exponent with
    | none => Double.ofDecimal? significand power
    | some (down, digits) =>
      let e := natOfDigits digits
      if exponentLimit ≤ e then
        if significand = 0 ∨ down then some Double.zero else none
      else
        Double.ofDecimal? significand (if down then power - e else power + e)
  return if n.negative then magnitude.neg else magnitude

/-- What the number denotes: an integer if it is written as one, fits 64 bits and is not a negative
zero; a double otherwise; `none` if it is too large. -/
def value? (n : NumberText) : Option JsonNumber :=
  let whole := natOfDigits n.whole
  if n.fraction.isNone && n.exponent.isNone && !n.negative && decide (whole < Json.wordSize) then
    some (.int whole)
  else if n.fraction.isNone && n.exponent.isNone && n.negative && decide (0 < whole) &&
      decide (whole ≤ Nat.pow 2 63) then
    some (.int (-whole))
  else
    n.double?.map .double

end NumberText

/-! ## What strings denote -/

namespace StringPart

/-- The characters that the parts denote; `none` if half of a surrogate pair stands alone. -/
def chars? : List StringPart → Option (List Char)
  | [] => some []
  | .char c :: rest => (chars? rest).map (c :: ·)
  | .unit n :: rest =>
    if n < 0xd800 ∨ 0xdfff < n then
      (chars? rest).map (Char.ofNat n :: ·)
    else
      match rest with
      | .unit low :: rest =>
        if n ≤ 0xdbff ∧ 0xdc00 ≤ low ∧ low ≤ 0xdfff then
          (chars? rest).map (Char.ofNat (0x10000 + (n - 0xd800) * 0x400 + (low - 0xdc00)) :: ·)
        else
          none
      | _ => none

/-- The string that the parts denote. -/
def string? (parts : List StringPart) : Option String :=
  (chars? parts).map String.ofList

end StringPart

/-! ## What values denote -/

namespace JsonText

mutual

/-- The value that the text denotes. -/
def value? : JsonText → Option Json
  | null => some .null
  | bool b => some (.bool b)
  | number n => n.value?.map .num
  | string s => (StringPart.string? s).map .str
  | array items => (values? items).map .arr
  | object fields => (fields? fields).map fun fields => .obj (Json.orderFields fields)

/-- The values of the items of an array. -/
def values? : List JsonText → Option (List Json)
  | [] => some []
  | item :: rest => do return (← value? item) :: (← values? rest)

/-- The keys and values of an object, in order of appearance. -/
def fields? : List (List StringPart × JsonText) → Option (List (String × Json))
  | [] => some []
  | (key, item) :: rest => do
    return (← StringPart.string? key, ← value? item) :: (← fields? rest)

end

end JsonText

end SolidityScan
