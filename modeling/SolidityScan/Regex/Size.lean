/-
# Sizes of patterns

A part that is decided as a whole is written out in full, each counted repetition as often as its
bounds tell, so its size is limited and its bounds have to be in order.
-/
import SolidityScan.Regex.Machine
import SolidityScan.Regex.Parser

namespace SolidityScan

/-! ## Sizes -/

/-- The size of one step, in bytes. -/
def stepSize : Nat := 32

/-- The greatest size of a part that is decided as a whole, in bytes. -/
def sizeLimit : Nat := 10 * Nat.pow 2 20

/-- One more than the greatest bound of a repetition. -/
def boundSize : Nat := Nat.pow 2 32

/-- The size of a step that accepts one of the characters; those outside ASCII are told apart byte
by byte. -/
def CharSet.size : CharSet → Nat
  | .nothing => stepSize
  | .single c => stepSize * c.utf8Size
  | .range _ last => if last.toNat < 128 then stepSize else 8 * stepSize
  | .word => 2000 * stepSize
  | .digit => 150 * stepSize
  | .blank => 20 * stepSize
  | .union a b => a.size + b.size
  | .inter a b => a.size + b.size
  | .without a b => a.size + b.size
  | .either a b => a.size + b.size
  | .folded s => 2 * s.size
  | .compl s => s.size + 16 * stepSize

namespace Regex

/-- The size of a pattern that is written out. -/
def size : Regex → Nat
  | empty => 0
  | char s => s.size
  | assert _ => stepSize
  | seq a b => a.size + b.size
  | alt a b => a.size + b.size + stepSize
  | rep e least most _ => (e.size + stepSize) * max (most.getD least) 1
  | group captured e => if captured then e.size + 2 * stepSize else e.size
  | atomic e => e.size
  | look _ _ e => e.size

/-- All bounds are in order and not too great. -/
def boundsFit : Regex → Bool
  | empty | char _ | assert _ => true
  | seq a b => a.boundsFit && b.boundsFit
  | alt a b => a.boundsFit && b.boundsFit
  | rep e least most _ =>
    least < boundSize && most.all (fun m => least ≤ m && m < boundSize) && e.boundsFit
  | group _ e => e.boundsFit
  | atomic e => e.boundsFit
  | look _ _ e => e.boundsFit

/-- The pattern can be written out. -/
def fitsWhole (e : Regex) : Bool :=
  e.boundsFit && e.size ≤ sizeLimit

/-- Every part that is decided as a whole can be written out. -/
def fits (r : Role) (e : Regex) : Bool :=
  if r.decides e then
    e.fitsWhole
  else
    match e with
    | empty | char _ | assert _ => true
    | seq a b =>
      if r.asTail.decides (seq a b) then
        (seq a b).fitsWhole
      else if r.asTail.decidesFirst a then
        a.fitsWhole && b.fits (r.next true)
      else
        a.fits (.alone true) && b.fits (r.next false)
    | alt a b => a.fits r.within && b.fits r.within
    | rep e least most _ =>
      e.fits (if least = 0 ∧ most = some 1 then r.within else .alone true)
    | group _ e => e.fits r.within
    | atomic e => e.fits (.alone false)
    | look _ _ e => e.fits (.alone false)

/-- Reads a pattern that can be run; `none` if it is malformed. -/
def parse? (source : String) : Option Regex := do
  let e ← (← read? source).splitLooks?
  if e.fits (.alone e.backtracks) then some e else none

end Regex

end SolidityScan
