/-
# Decoding UTF-8

Bytes are decoded strictly: no overlong form, no surrogate, nothing above the last code point.  An
error tells where the first bad sequence starts, and how many bytes of it are wrong unless the
input merely ends too early.
-/

namespace SolidityScan

/-- Why bytes are not UTF-8. -/
inductive Utf8Error where
  /-- The `length` bytes from `index` on start no valid sequence. -/
  | invalid (length index : Nat)
  /-- The input ends inside the sequence that starts at `index`. -/
  | incomplete (index : Nat)
deriving DecidableEq, Repr

namespace Utf8Error

/-- The text of the error. -/
def message : Utf8Error → String
  | invalid length index => s!"invalid utf-8 sequence of {length} bytes from index {index}"
  | incomplete index => s!"incomplete utf-8 byte sequence from index {index}"

end Utf8Error

namespace Utf8

/-- A byte that continues a sequence. -/
def isContinuation (b : UInt8) : Bool :=
  0x80 ≤ b && b ≤ 0xbf

/-- The low six bits of a continuation byte. -/
def payload (b : UInt8) : Nat :=
  b.toNat - 0x80

/-- A second byte that can follow the given first byte of three. -/
def isSecondOfThree (first second : UInt8) : Bool :=
  if first = 0xe0 then 0xa0 ≤ second && second ≤ 0xbf
  else if first = 0xed then 0x80 ≤ second && second ≤ 0x9f
  else isContinuation second

/-- A second byte that can follow the given first byte of four. -/
def isSecondOfFour (first second : UInt8) : Bool :=
  if first = 0xf0 then 0x90 ≤ second && second ≤ 0xbf
  else if first = 0xf4 then 0x80 ≤ second && second ≤ 0x8f
  else isContinuation second

/-- Decodes bytes, the first of which has the given index. -/
def decodeFrom (index : Nat) : List UInt8 → Except Utf8Error (List Char)
  | [] => .ok []
  | a :: rest =>
    if a < 0x80 then do
      return Char.ofNat a.toNat :: (← decodeFrom (index + 1) rest)
    else if 0xc2 ≤ a && a ≤ 0xdf then
      match rest with
      | [] => .error (.incomplete index)
      | b :: rest =>
        if isContinuation b then do
          let n := (a.toNat - 0xc0) * 0x40 + payload b
          return Char.ofNat n :: (← decodeFrom (index + 2) rest)
        else
          .error (.invalid 1 index)
    else if 0xe0 ≤ a && a ≤ 0xef then
      match rest with
      | [] => .error (.incomplete index)
      | b :: rest =>
        if !isSecondOfThree a b then
          .error (.invalid 1 index)
        else
          match rest with
          | [] => .error (.incomplete index)
          | c :: rest =>
            if isContinuation c then do
              let n := (a.toNat - 0xe0) * 0x1000 + payload b * 0x40 + payload c
              return Char.ofNat n :: (← decodeFrom (index + 3) rest)
            else
              .error (.invalid 2 index)
    else if 0xf0 ≤ a && a ≤ 0xf4 then
      match rest with
      | [] => .error (.incomplete index)
      | b :: rest =>
        if !isSecondOfFour a b then
          .error (.invalid 1 index)
        else
          match rest with
          | [] => .error (.incomplete index)
          | c :: rest =>
            if !isContinuation c then
              .error (.invalid 2 index)
            else
              match rest with
              | [] => .error (.incomplete index)
              | d :: rest =>
                if isContinuation d then do
                  let n := (a.toNat - 0xf0) * 0x40000 + payload b * 0x1000 + payload c * 0x40 +
                    payload d
                  return Char.ofNat n :: (← decodeFrom (index + 4) rest)
                else
                  .error (.invalid 3 index)
    else
      .error (.invalid 1 index)

/-- The text that the bytes encode. -/
def decode (bytes : List UInt8) : Except Utf8Error String :=
  (decodeFrom 0 bytes).map String.ofList

end Utf8

end SolidityScan
