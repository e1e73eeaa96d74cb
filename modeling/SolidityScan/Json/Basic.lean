/-
# JSON values

A JSON value as the scanner holds it.  Numbers are integers of at most 64 bits or doubles, and the
fields of an object are kept in a list; a value that was read has them in ascending order of keys.
-/
import SolidityScan.Json.Double

namespace SolidityScan

/-- A JSON number. -/
inductive JsonNumber where
  | int (n : Int)
  | double (x : Double)
deriving DecidableEq, Repr

/-- A JSON value. -/
inductive Json where
  | null
  | bool (b : Bool)
  | num (n : JsonNumber)
  | str (s : String)
  | arr (items : List Json)
  | obj (fields : List (String × Json))
deriving Repr, Inhabited

namespace Json

/-- A natural number as a value. -/
def nat (n : Nat) : Json :=
  num (.int n)

/-- A value for an optional part, `null` if there is none. -/
def ofOption {α : Type} (f : α → Json) : Option α → Json
  | none => null
  | some a => f a

/-! ## Looking into values -/

/-- The field of an object with the given key. -/
def field? (v : Json) (key : String) : Option Json :=
  match v with
  | obj fields => fields.lookup key
  | _ => none

/-- The text of a string. -/
def str? : Json → Option String
  | str s => some s
  | _ => none

/-- The value of a boolean. -/
def bool? : Json → Option Bool
  | bool b => some b
  | _ => none

/-- The items of an array. -/
def items? : Json → Option (List Json)
  | arr items => some items
  | _ => none

/-- The number of values that 64 bits without a sign can tell apart. -/
def wordSize : Nat := Nat.pow 2 64

/-- An integer that fits 64 bits without a sign. -/
def word? : Json → Option Nat
  | num (.int n) => if 0 ≤ n ∧ n < wordSize then some n.toNat else none
  | _ => none

/-! ## Objects with ordered keys -/

/-- Puts a field into a list of fields in ascending order of keys; an equal key is replaced. -/
def insertField {α : Type} (key : String) (value : α) : List (String × α) → List (String × α)
  | [] => [(key, value)]
  | (k, v) :: rest =>
    if key < k then (key, value) :: (k, v) :: rest
    else if key = k then (key, value) :: rest
    else (k, v) :: insertField key value rest

/-- The fields in ascending order of keys; of equal keys the last one counts. -/
def orderFields {α : Type} (fields : List (String × α)) : List (String × α) :=
  fields.foldl (fun done (key, value) => insertField key value done) []

end Json

end SolidityScan
